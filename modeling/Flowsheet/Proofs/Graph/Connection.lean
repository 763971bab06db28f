import Flowsheet.Proofs.Graph.Handle
import Flowsheet.Proofs.Graph.Integrity
import Mathlib.Data.List.Nodup
import Mathlib.Data.Nat.Find

/-! New edges. Which edges a graph refuses, and how an edge that is given no id gets one: candidates
are tried one after another until there is one that no edge has. -/

namespace Flowsheet.Graph

open RowHandle Text

variable {g h : Graph} {edge : Edge} {check : Bool} {fault : Fault} {base id : String}
  {node : Node} {handle : Option String} {n : Nat}

/-- Why an edge is refused. The ends are looked at first, then the id, and the handle last. -/
inductive Refuses (g : Graph) (edge : Edge) (check : Bool) : Fault → Prop
  | source (hs : edge.source ∉ g.nodeIds) : Refuses g edge check (.danglingEnd edge.id edge.source)
  | target (hs : edge.source ∈ g.nodeIds) (ht : edge.target ∉ g.nodeIds) :
      Refuses g edge check (.danglingEnd edge.id edge.target)
  | duplicate (hs : edge.source ∈ g.nodeIds) (ht : edge.target ∈ g.nodeIds)
      (hid : edge.id ∈ g.edgeIds) : Refuses g edge check (.duplicateEdge edge.id)
  | overlong {kind : RowKind} {digits : List Char} (hs : edge.source ∈ g.nodeIds)
      (ht : edge.target ∈ g.nodeIds) (hid : edge.id ∉ g.edgeIds) (hc : check = true)
      (hn : Names edge.handle kind digits) (hl : longestRow < digits.length) :
      Refuses g edge check (.longIndex digits.length)
  | row {node : Node} (hs : g.node? edge.source = some node) (ht : edge.target ∈ g.nodeIds)
      (hid : edge.id ∉ g.edgeIds) (hc : check = true) (hl : ¬ Overlong edge.handle)
      (hr : node.payload.Lacks edge.handle) :
      Refuses g edge check (.invalidHandle edge.source (edge.handle.getD ""))

theorem Keyed.node?_of_not_mem (hg : g.Keyed) (hid : id ∉ g.nodeIds) : g.node? id = none :=
  Option.eq_none_iff_forall_not_mem.mpr fun _ hn => hid (hg.mem_nodeIds_of_node? hn)

theorem requireRow_eq_ok : requireRow node handle = .ok () ↔
    handleResolves node.payload handle = .ok true := by
  unfold requireRow
  rw [bind_eq_ok]
  constructor
  · rintro ⟨resolves, hr, he⟩
    cases resolves with
    | true => exact hr
    | false => cases he
  · exact fun hr => ⟨true, hr, rfl⟩

theorem requireRow_eq_error : requireRow node handle = .error fault ↔
    handleResolves node.payload handle = .error fault ∨
      handleResolves node.payload handle = .ok false ∧
        fault = .invalidHandle node.id (handle.getD "") := by
  unfold requireRow
  rw [bind_eq_error]
  refine or_congr_right ⟨?_, fun ⟨hr, he⟩ => ⟨false, hr, he ▸ rfl⟩⟩
  rintro ⟨resolves, hr, he⟩
  cases resolves with
  | true => cases he
  | false => exact ⟨hr, (Except.error.inj he).symm⟩

/-- With both ends there and a new id, only the handle can still be refused. -/
theorem addEdge_eq_error_of_mem (hg : g.Keyed) (hs : g.node? edge.source = some node)
    (ht : edge.target ∈ g.nodeIds) (hid : edge.id ∉ g.edgeIds) :
    g.addEdge edge check = .error fault ↔
      check = true ∧ requireRow node edge.handle = .error fault := by
  obtain ⟨stored, hstore, -⟩ := storeEdge_of_not_mem hg hid
  have htarget := hg.contains_iff.mpr ht
  have hnew : ¬ g.hasEdge edge.id = true := fun hc => hid (hg.hasEdge_iff.mp hc)
  simp only [addEdge, hs, htarget, Bool.not_true, Bool.false_eq_true, if_false, if_neg hnew]
  cases check with
  | false =>
    refine iff_of_false (fun he => ?_) fun hr => Bool.false_ne_true hr.1
    cases hstore.symm.trans he
  | true =>
    rw [if_pos rfl, bind_eq_error]
    constructor
    · rintro (hr | ⟨_, -, he⟩)
      · exact ⟨rfl, hr⟩
      · cases hstore.symm.trans he
    · exact fun hr => .inl hr.2

theorem addEdge_of_refuses (hg : g.Keyed) (hr : g.Refuses edge check fault) :
    g.addEdge edge check = .error fault := by
  cases hr with
  | source hs => rw [addEdge, hg.node?_of_not_mem hs]
  | target hs ht =>
    obtain ⟨node, hnode⟩ := hg.exists_node? hs
    have hcontains : ¬ g.contains edge.target = true := fun hc => ht (hg.contains_iff.mp hc)
    simp [addEdge, hnode, hcontains]
  | duplicate hs ht hid =>
    obtain ⟨node, hnode⟩ := hg.exists_node? hs
    simp [addEdge, hnode, hg.contains_iff.mpr ht, hg.hasEdge_iff.mpr hid]
  | overlong hs ht hid hc hn hl =>
    obtain ⟨node, hnode⟩ := hg.exists_node? hs
    have hlong : handleResolves node.payload edge.handle = .error _ :=
      handleResolves_eq_error_iff.mpr ⟨_, _, hn, hl, rfl⟩
    exact (addEdge_eq_error_of_mem hg hnode ht hid).mpr ⟨hc, requireRow_eq_error.mpr (.inl hlong)⟩
  | row hs ht hid hc hl hr =>
    have hlacks := handleResolves_eq_ok_iff.mpr ⟨hl, iff_of_false Bool.false_ne_true (not_not.mpr hr)⟩
    refine (addEdge_eq_error_of_mem hg hs ht hid).mpr
      ⟨hc, requireRow_eq_error.mpr (.inr ⟨hlacks, ?_⟩)⟩
    rw [(hg.mem_of_node? hs).2]

theorem refuses_of_addEdge (hg : g.Keyed) (ha : g.addEdge edge check = .error fault) :
    g.Refuses edge check fault := by
  -- What is refused for one reason is not refused for another.
  have hsame : ∀ {other}, g.Refuses edge check other → g.Refuses edge check fault := by
    intro other hr
    obtain rfl := Except.error.inj ((addEdge_of_refuses hg hr).symm.trans ha)
    exact hr
  by_cases hs : edge.source ∈ g.nodeIds
  · by_cases ht : edge.target ∈ g.nodeIds
    · by_cases hid : edge.id ∈ g.edgeIds
      · exact hsame (.duplicate hs ht hid)
      · obtain ⟨node, hnode⟩ := hg.exists_node? hs
        obtain ⟨hc, hr⟩ := (addEdge_eq_error_of_mem hg hnode ht hid).mp ha
        rcases requireRow_eq_error.mp hr with hlong | ⟨hlacks, -⟩
        · obtain ⟨kind, digits, hn, hl, -⟩ := handleResolves_eq_error_iff.mp hlong
          exact hsame (.overlong hs ht hid hc hn hl)
        · obtain ⟨hl, hiff⟩ := handleResolves_eq_ok_iff.mp hlacks
          exact hsame (.row hnode ht hid hc hl (by simpa using hiff))
    · exact hsame (.target hs ht)
  · exact hsame (.source hs)

theorem addEdge_eq_error_iff (hg : g.Keyed) :
    g.addEdge edge check = .error fault ↔ g.Refuses edge check fault :=
  ⟨refuses_of_addEdge hg, addEdge_of_refuses hg⟩

/-- An edge that was added with its handle checked leaves a row that its source has. -/
theorem resolves_of_addEdge (ha : g.addEdge edge true = .ok h) :
    ∃ node, g.node? edge.source = some node ∧
      handleResolves node.payload edge.handle = .ok true := by
  unfold addEdge at ha
  split at ha
  · cases ha
  · next node hnode =>
    split at ha
    · cases ha
    · split at ha
      · cases ha
      · obtain ⟨_, hr, -⟩ := bind_eq_ok.mp ha
        exact ⟨node, hnode, requireRow_eq_ok.mp hr⟩

theorem candidateEdgeId_succ (base : String) (n : Nat) :
    candidateEdgeId base (n + 1) = base ++ ("-" ++ (n + 1).repr) := by
  rw [← String.append_assoc]
  rfl

theorem candidateEdgeId_injective (base : String) : Function.Injective (candidateEdgeId base) := by
  have hlonger : ∀ n, candidateEdgeId base (n + 1) ≠ candidateEdgeId base 0 := by
    intro n he
    rw [candidateEdgeId_succ, candidateEdgeId] at he
    simpa using congrArg String.length he
  intro m n he
  cases m with
  | zero =>
    cases n with
    | zero => rfl
    | succ n => exact absurd he.symm (hlonger n)
  | succ m =>
    cases n with
    | zero => exact absurd he (hlonger m)
    | succ n =>
      rw [candidateEdgeId_succ, candidateEdgeId_succ, String.append_right_inj,
        String.append_right_inj] at he
      have hdigits : Nat.toDigits 10 (m + 1) = Nat.toDigits 10 (n + 1) := by
        simpa only [Nat.toList_repr] using congrArg String.toList he
      have hread := congrArg (Nat.ofDigitChars 10 · 0) hdigits
      simpa [Nat.ofDigitChars_toDigits] using hread

/-- There are more candidates than edges, so some candidate is unused. -/
theorem exists_unused (g : Graph) (base : String) :
    ∃ n ≤ g.edges.length, candidateEdgeId base n ∉ g.edgeIds := by
  by_contra hall
  have hused : ∀ n ≤ g.edges.length, candidateEdgeId base n ∈ g.edgeIds := fun n hn =>
    not_not.mp fun hnot => hall ⟨n, hn, hnot⟩
  have hnodup : ((List.range (g.edges.length + 1)).map (candidateEdgeId base)).Nodup :=
    List.nodup_range.map (candidateEdgeId_injective base)
  have hsub : (List.range (g.edges.length + 1)).map (candidateEdgeId base) ⊆ g.edgeIds := by
    intro id hid
    obtain ⟨n, hn, rfl⟩ := List.mem_map.mp hid
    exact hused n (Nat.lt_succ_iff.mp (List.mem_range.mp hn))
  have hlength := hnodup.length_le_of_subset hsub
  rw [List.length_map, List.length_range, edgeIds, List.length_map] at hlength
  exact Nat.not_succ_le_self _ hlength

theorem freshEdgeId_eq (hg : g.Keyed) (hn : n ≤ g.edges.length)
    (hunused : candidateEdgeId base n ∉ g.edgeIds)
    (hused : ∀ m < n, candidateEdgeId base m ∈ g.edgeIds) :
    g.freshEdgeId base = candidateEdgeId base n := by
  have hfound : (List.range (g.edges.length + 1)).find? (fun n =>
      !g.hasEdge (candidateEdgeId base n)) = some n := by
    refine List.find?_range_eq_some.mpr ⟨?_, List.mem_range.mpr (Nat.lt_succ_of_le hn), ?_⟩
    · simpa using fun hc => hunused (hg.hasEdge_iff.mp hc)
    · intro m hm
      simpa using hg.hasEdge_iff.mpr (hused m hm)
  simp only [freshEdgeId, hfound, Option.getD_some]

/-- Where a search for an unused id stands: at a candidate, with the number of the next one. -/
structure Search where
  candidate : String
  number : Nat

namespace Search

/-- A turn passes over a candidate that an edge has. -/
def turn? (g : Graph) (base : String) (s : Search) : Option Search :=
  if g.hasEdge s.candidate then some ⟨s!"{base}-{s.number}", s.number + 1⟩ else none

/-- The search after a number of turns, if it has not ended before. -/
def after? (g : Graph) (base : String) : Nat → Option Search
  | 0 => some ⟨base, 1⟩
  | n + 1 => (after? g base n).bind (turn? g base)

variable {s t : Search}

theorem turn?_eq_some_iff (hg : g.Keyed) : turn? g base s = some t ↔
    s.candidate ∈ g.edgeIds ∧ t = ⟨s!"{base}-{s.number}", s.number + 1⟩ := by
  rw [turn?, ← hg.hasEdge_iff]
  split
  · next hc => simp [hc, eq_comm]
  · next hc => simp [hc]

theorem turn?_eq_none_iff (hg : g.Keyed) : turn? g base s = none ↔ s.candidate ∉ g.edgeIds := by
  rw [turn?, ← hg.hasEdge_iff]
  split
  · next hc => simp [hc]
  · next hc => simp [hc]

theorem after?_eq_some_iff (hg : g.Keyed) : after? g base n = some s ↔
    s = ⟨candidateEdgeId base n, n + 1⟩ ∧ ∀ m < n, candidateEdgeId base m ∈ g.edgeIds := by
  induction n generalizing s with
  | zero => simp [after?, candidateEdgeId, eq_comm]
  | succ n ih =>
    rw [after?, Option.bind_eq_some_iff, Nat.forall_lt_succ_right]
    constructor
    · rintro ⟨t, ht, hs⟩
      obtain ⟨rfl, hused⟩ := ih.mp ht
      obtain ⟨hlast, rfl⟩ := (turn?_eq_some_iff hg).mp hs
      exact ⟨rfl, hused, hlast⟩
    · rintro ⟨rfl, hused, hlast⟩
      exact ⟨_, ih.mpr ⟨rfl, hused⟩, (turn?_eq_some_iff hg).mpr ⟨hlast, rfl⟩⟩

end Search

/-- The search ends with this id after so many turns: it is the first candidate that is unused. -/
structure Finds (g : Graph) (base id : String) (turns : Nat) : Prop where
  turns_le : turns ≤ g.edges.length
  ends : ∃ s, Search.after? g base turns = some s ∧ s.turn? g base = none ∧ s.candidate = id
  id_eq : id = candidateEdgeId base turns
  unused : id ∉ g.edgeIds
  used_before : ∀ n < turns, candidateEdgeId base n ∈ g.edgeIds

theorem finds_freshEdgeId (hg : g.Keyed) (base : String) :
    ∃ turns, g.Finds base (g.freshEdgeId base) turns := by
  obtain ⟨bound, hbound, hfree⟩ := g.exists_unused base
  have hex : ∃ n, candidateEdgeId base n ∉ g.edgeIds := ⟨bound, hfree⟩
  have hle : Nat.find hex ≤ g.edges.length := Nat.le_trans (Nat.find_min' hex hfree) hbound
  have hunused := Nat.find_spec hex
  have hused : ∀ n < Nat.find hex, candidateEdgeId base n ∈ g.edgeIds := fun n hn =>
    not_not.mp (Nat.find_min hex hn)
  have hfresh := freshEdgeId_eq hg hle hunused hused
  have hafter := (Search.after?_eq_some_iff hg).mpr ⟨rfl, hused⟩
  rw [hfresh]
  exact ⟨Nat.find hex, hle, ⟨_, hafter, (Search.turn?_eq_none_iff hg).mpr hunused, rfl⟩, rfl,
    hunused, hused⟩

/-- The edge that connecting adds. -/
def connection (g : Graph) (source target : String) (handle : Option String) : Edge :=
  ⟨g.freshEdgeId (baseEdgeId source target handle), source, target, handle⟩

theorem connect_eq_error {source target : String} :
    g.connect source target handle = .error fault ↔
      g.addEdge (g.connection source target handle) true = .error fault := by
  rw [connect, bind_eq_error]
  constructor
  · rintro (ha | ⟨_, -, he⟩)
    · exact ha
    · cases he
  · exact .inl

/-- What connecting does. The search always gives an id, so that only the ends or the handle can be
at fault. -/
structure Connects (g : Graph) (source target : String) (handle : Option String) : Prop where
  finds : ∃ turns, g.Finds (baseEdgeId source target handle)
    (g.connection source target handle).id turns
  ne_duplicate : ∀ id, g.connect source target handle ≠ .error (.duplicateEdge id)
  error_iff : ∀ fault, g.connect source target handle = .error fault ↔
    g.Refuses (g.connection source target handle) true fault
  added : ∀ {h edge}, g.connect source target handle = .ok (h, edge) →
    edge = g.connection source target handle ∧ h.Holds g.nodes (g.edges ++ [edge])

theorem Built.connects (hg : g.Built) (source target : String) (handle : Option String) :
    g.Connects source target handle := by
  have hkeyed := hg.sound.toKeyed
  obtain ⟨turns, hfinds⟩ := finds_freshEdgeId hkeyed (baseEdgeId source target handle)
  have herror : ∀ fault, g.connect source target handle = .error fault ↔
      g.Refuses (g.connection source target handle) true fault := fun fault =>
    connect_eq_error.trans (addEdge_eq_error_iff hkeyed)
  refine ⟨⟨turns, hfinds⟩, ?_, herror, ?_⟩
  · intro id he
    cases hr : (herror _).mp he
    next hid => exact hfinds.unused hid
  · intro h edge hc
    obtain ⟨hedge, ha⟩ := connect_eq_ok hc
    obtain ⟨-, -, -, hholds⟩ := addEdge_eq_ok hkeyed ha
    exact ⟨hedge, hholds⟩

/-- The handle `1` takes the id that would have been the second candidate of the plain edge. -/
def crowded : Graph :=
  Graph.empty.editAll
    [.addNode ⟨"a", .start, .empty .items, .origin⟩,
      .addNode ⟨"b", .finish, .empty .items, .origin⟩,
      .connect "a" "b" (some "1"), .connect "a" "b" none]

theorem crowded_connects :
    crowded.Built ∧ crowded.edgeIds = ["e-a-b-1", "e-a-b"] ∧
      (crowded.connection "a" "b" none).id = "e-a-b-2" ∧ crowded.Connects "a" "b" none := by
  have hb : crowded.Built := Built.empty.editAll (by decide)
  exact ⟨hb, by decide, by decide, hb.connects "a" "b" none⟩

/-- A single process without rows. -/
def lone : Graph :=
  Graph.empty.editAll [.addNode ⟨"p", .process, .empty .process, .origin⟩]

theorem built_lone : lone.Built := Built.empty.editAll (by decide)

theorem lone_farRow_unread : lone.Built ∧
    lone.node? "p" = some ⟨"p", .process, .empty .process, .origin⟩ ∧
    (Payload.empty .process).Lacks (some farRow) ∧
    lone.connect "p" "p" (some farRow) = .error (.longIndex (longestRow + 1)) := by
  have hmem : "p" ∈ lone.nodeIds := by decide
  have hnew : (lone.connection "p" "p" (some farRow)).id ∉ lone.edgeIds := by
    have hnone : lone.edgeIds = [] := by decide
    rw [hnone]
    exact List.not_mem_nil
  have hr : lone.Refuses (lone.connection "p" "p" (some farRow)) true
      (.longIndex (List.replicate (longestRow + 1) '9').length) :=
    .overlong hmem hmem hnew rfl names_farRow (by simp)
  rw [List.length_replicate] at hr
  exact ⟨built_lone, rfl, ⟨_, _, names_farRow, Nat.zero_le _⟩,
    connect_eq_error.mpr (addEdge_of_refuses built_lone.sound.toKeyed hr)⟩

end Flowsheet.Graph
