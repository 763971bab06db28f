import Flowsheet.Proofs.Graph.Connection
import Flowsheet.Proofs.Numeral.Reading

/-! Edges that are added with an id of their own. An edge is taken if nothing speaks against it, and
otherwise refused for the first thing that does. A handle whose index is not read is refused as well,
even if its row is there. -/

namespace Flowsheet.Graph

open RowHandle Text

variable {g h : Graph} {edge : Edge} {check : Bool} {fault other : Fault}

/-- Nothing speaks against the edge. Its handle matters only if it is checked. -/
structure Admits (g : Graph) (edge : Edge) (check : Bool) : Prop where
  source_mem : edge.source ∈ g.nodeIds
  target_mem : edge.target ∈ g.nodeIds
  id_not_mem : edge.id ∉ g.edgeIds
  handle_read : check = true → ¬ Overlong edge.handle
  row_present : check = true →
    ∀ node, g.node? edge.source = some node → ¬ node.payload.Lacks edge.handle

theorem Admits.not_refuses (ha : g.Admits edge check) : ¬ g.Refuses edge check fault := by
  intro hr
  cases hr with
  | source hs => exact hs ha.source_mem
  | target _ ht => exact ht ha.target_mem
  | duplicate _ _ hid => exact ha.id_not_mem hid
  | overlong _ _ _ hc hn hl => exact ha.handle_read hc ⟨_, _, hn, hl⟩
  | row hs _ _ hc _ hr => exact ha.row_present hc _ hs hr

theorem addEdge_of_admits (hg : g.Keyed) (ha : g.Admits edge check) :
    ∃ h, g.addEdge edge check = .ok h := by
  cases hadd : g.addEdge edge check with
  | error fault => exact absurd (refuses_of_addEdge hg hadd) ha.not_refuses
  | ok h => exact ⟨h, rfl⟩

theorem admits_of_addEdge (hg : g.Keyed) (ha : g.addEdge edge check = .ok h) :
    g.Admits edge check := by
  obtain ⟨hs, ht, hid, -⟩ := addEdge_eq_ok hg ha
  have hresolves : check = true → ∃ node, g.node? edge.source = some node ∧
      handleResolves node.payload edge.handle = .ok true := by
    rintro rfl
    exact resolves_of_addEdge ha
  refine ⟨hs, ht, hid, fun hc => ?_, fun hc node hnode => ?_⟩
  · obtain ⟨_, -, hr⟩ := hresolves hc
    exact (handleResolves_eq_ok_iff.mp hr).1
  · obtain ⟨_, hsource, hr⟩ := hresolves hc
    obtain rfl := Option.some.inj (hsource.symm.trans hnode)
    exact (handleResolves_eq_ok_iff.mp hr).2.mp rfl

theorem Refuses.unique (hg : g.Keyed) (hr : g.Refuses edge check fault)
    (ho : g.Refuses edge check other) : fault = other :=
  Except.error.inj ((addEdge_of_refuses hg hr).symm.trans (addEdge_of_refuses hg ho))

/-- What becomes of an edge that is to be added. -/
structure TakesOrRefuses (g : Graph) (edge : Edge) (check : Bool) : Prop where
  ok_iff : (∃ h, g.addEdge edge check = .ok h) ↔ g.Admits edge check
  error_iff : ∀ fault, g.addEdge edge check = .error fault ↔ g.Refuses edge check fault
  one_fault : ∀ fault other, g.Refuses edge check fault → g.Refuses edge check other →
    fault = other
  refused : ∀ fault, g.addEdge edge check = .error fault → g.tryEdit (.addEdge edge check) = g
  taken : ∀ h, g.addEdge edge check = .ok h →
    g.tryEdit (.addEdge edge check) = h ∧ h.Holds g.nodes (g.edges ++ [edge])

theorem Built.takesOrRefuses (hg : g.Built) (edge : Edge) (check : Bool) :
    g.TakesOrRefuses edge check := by
  have hkeyed := hg.sound.toKeyed
  refine ⟨⟨?_, addEdge_of_admits hkeyed⟩, fun _ => addEdge_eq_error_iff hkeyed,
    fun _ _ => Refuses.unique hkeyed, fun _ ha => tryEdit_of_error ha,
    fun h ha => ⟨tryEdit_of_ok ha, ?_⟩⟩
  · rintro ⟨h, ha⟩
    exact admits_of_addEdge hkeyed ha
  · obtain ⟨-, -, -, hholds⟩ := addEdge_eq_ok hkeyed ha
    exact hholds

/-- The id is taken, and the finish has no branches either. The handle is not even looked at. -/
theorem crowded_takesOrRefuses :
    crowded.Built ∧ crowded.node? "b" = some ⟨"b", .finish, .empty .items, .origin⟩ ∧
      (Payload.empty .items).Lacks (some "branch-0") ∧
      crowded.addEdge ⟨"e-a-b", "b", "a", some "branch-0"⟩ true =
        .error (.duplicateEdge "e-a-b") ∧
      crowded.TakesOrRefuses ⟨"e-a-b", "b", "a", some "branch-0"⟩ true := by
  have hb : crowded.Built := Built.empty.editAll (by decide)
  have hlacks : (Payload.empty .items).Lacks (some "branch-0") :=
    ⟨.branch, ['0'], names_replicate .branch isDigit_zero 0, Nat.zero_le _⟩
  exact ⟨hb, rfl, hlacks, rfl, hb.takesOrRefuses _ _⟩

/-- The first branch, by one zero more than is read. -/
def drawnOut : String := spell .branch (List.replicate (longestRow + 1) '0')

/-- A single decision with one branch. -/
def gate : Graph :=
  Graph.empty.editAll
    [.addNode ⟨"d", .decision, .ofBody (.decision ["pass"]) "" "", .origin⟩]

theorem gate_drawnOut_unread : gate.Built ∧
    gate.node? "d" = some ⟨"d", .decision, .ofBody (.decision ["pass"]) "" "", .origin⟩ ∧
    gate.edges = [] ∧ ¬ (Payload.ofBody (.decision ["pass"]) "" "").Lacks (some drawnOut) ∧
    gate.addEdge ⟨"e", "d", "d", some drawnOut⟩ true = .error (.longIndex (longestRow + 1)) := by
  have hb : gate.Built := Built.empty.editAll (by decide)
  have hn : Names (some drawnOut) .branch (List.replicate (longestRow + 1) '0') :=
    names_replicate .branch isDigit_zero longestRow
  have hpresent : ¬ (Payload.ofBody (.decision ["pass"]) "" "").Lacks (some drawnOut) := by
    rintro ⟨kind, digits, hn', hl⟩
    obtain ⟨rfl, rfl⟩ := hn.unique hn'
    have hzero : numberOfDigits (List.replicate (longestRow + 1) '0') = 0 :=
      Numeral.numberOfDigits_zeros _
    rw [hzero] at hl
    exact absurd hl (by decide)
  have hmem : "d" ∈ gate.nodeIds := by decide
  have hnone : gate.edges = [] := rfl
  have hnew : "e" ∉ gate.edgeIds := by
    rw [edgeIds, hnone]
    exact List.not_mem_nil
  have hr : gate.Refuses ⟨"e", "d", "d", some drawnOut⟩ true
      (.longIndex (List.replicate (longestRow + 1) '0').length) :=
    .overlong hmem hmem hnew rfl hn (by simp)
  rw [List.length_replicate] at hr
  exact ⟨hb, rfl, hnone, hpresent, addEdge_of_refuses hb.sound.toKeyed hr⟩

end Flowsheet.Graph
