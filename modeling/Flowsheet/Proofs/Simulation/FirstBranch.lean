import Flowsheet.Proofs.Graph.Handle
import Flowsheet.Proofs.Numeral.Reading
import Flowsheet.Proofs.Simulation.Way

/-! Which edge counts as the first branch of a decision. A run goes by the text of the handle, while
the rows of a node are found by reading it, and there are other texts that are read as the same row:
more zeros, zeros of other scripts, a line break at the end. The two agree wherever none of these is
used. -/

namespace Flowsheet

namespace RowHandle

open Numeral Text

variable {handle : Option String}

/-- The handle is read as the row of the first branch. -/
def IsFirstBranch (handle : Option String) : Prop :=
  read? handle = .ok (some ⟨.branch, 0⟩)

instance : DecidablePred IsFirstBranch :=
  fun handle => inferInstanceAs (Decidable (read? handle = .ok (some ⟨.branch, 0⟩)))

theorem isFirstBranch_iff : IsFirstBranch handle ↔ ∃ digits, Names handle .branch digits ∧
    digits.length ≤ longestRow ∧ ∀ c ∈ digits, digitValue c = 0 := by
  simp only [IsFirstBranch, read?_eq_some_iff, numberOfDigits_eq_zero_iff]

theorem isFirstBranch_firstBranch : IsFirstBranch (some firstBranch) := by decide

end RowHandle

namespace Graph

open RowHandle Text

variable {g : Graph} {id : String} {edge : Edge} {p q : Edge → Prop} {result : Option Edge}

/-- Of the edges that leave the node, this one was the first to have the property. -/
def LeavesFirst (g : Graph) (id : String) (p : Edge → Prop) (edge : Edge) : Prop :=
  ∃ before after, g.edges = before ++ edge :: after ∧ edge.source = id ∧ p edge ∧
    ∀ e ∈ before, e.source = id → ¬ p e

/-- What is taken at a node where the property tells the edges of the first branch: the first of
them, or else the first edge that leaves the node. -/
inductive Takes (g : Graph) (id : String) (p : Edge → Prop) : Option Edge → Prop
  | branch {edge : Edge} (he : g.LeavesFirst id p edge) : Takes g id p (some edge)
  | oldest {edge : Edge} (hnone : ∀ e ∈ g.edges, e.source = id → ¬ p e)
      (he : g.LeavesFirst id (fun _ => True) edge) : Takes g id p (some edge)
  | nothing (hnone : ∀ e ∈ g.edges, e.source ≠ id) : Takes g id p none

theorem find?_outgoing_eq_some_iff [DecidablePred p] :
    (g.outgoing id).find? (p ·) = some edge ↔ g.LeavesFirst id p edge := by
  rw [outgoing, List.find?_filter, List.find?_eq_some_iff_append]
  simp only [decide_eq_true_eq, Bool.not_eq_true', decide_eq_false_iff_not, not_and]
  constructor
  · rintro ⟨⟨hs, hp⟩, before, after, heq, hbefore⟩
    exact ⟨before, after, heq, hs, hp, hbefore⟩
  · rintro ⟨before, after, heq, hs, hp, hbefore⟩
    exact ⟨⟨hs, hp⟩, before, after, heq, hbefore⟩

theorem find?_outgoing_eq_none_iff [DecidablePred p] :
    (g.outgoing id).find? (p ·) = none ↔ ∀ e ∈ g.edges, e.source = id → ¬ p e := by
  simp [outgoing]

theorem head?_outgoing (g : Graph) (id : String) :
    (g.outgoing id).head? = (g.outgoing id).find? fun _ => True := by
  cases g.outgoing id <;> simp

theorem takes_iff [DecidablePred p] : g.Takes id p result ↔
    result = ((g.outgoing id).find? (p ·)).or (g.outgoing id).head? := by
  constructor
  · intro ht
    cases ht with
    | branch he => rw [find?_outgoing_eq_some_iff.mpr he, Option.some_or]
    | oldest hnone he =>
      rw [find?_outgoing_eq_none_iff.mpr hnone, Option.none_or, head?_outgoing,
        find?_outgoing_eq_some_iff.mpr he]
    | nothing hnone =>
      have hout : g.outgoing id = [] := List.filter_eq_nil_iff.mpr (by simpa using hnone)
      rw [hout]
      rfl
  · rintro rfl
    cases hf : (g.outgoing id).find? (p ·) with
    | some edge => exact .branch (find?_outgoing_eq_some_iff.mp hf)
    | none =>
      rw [Option.none_or]
      cases hh : (g.outgoing id).head? with
      | some edge =>
        rw [head?_outgoing] at hh
        exact .oldest (find?_outgoing_eq_none_iff.mp hf) (find?_outgoing_eq_some_iff.mp hh)
      | none =>
        have hout := List.filter_eq_nil_iff.mp (List.head?_eq_none_iff.mp hh)
        exact .nothing (by simpa using hout)

theorem Takes.congr (ht : g.Takes id p result)
    (hpq : ∀ e ∈ g.edges, e.source = id → (p e ↔ q e)) : g.Takes id q result := by
  cases ht with
  | @branch edge he =>
    obtain ⟨before, after, heq, hs, hp, hbefore⟩ := he
    have hmem : ∀ e, e ∈ before ∨ e = edge → e ∈ g.edges := by
      rintro e (he | rfl) <;> simp [*]
    refine .branch ⟨before, after, heq, hs, (hpq edge (hmem edge (.inr rfl)) hs).mp hp, ?_⟩
    exact fun e he hse hq => hbefore e he hse ((hpq e (hmem e (.inl he)) hse).mpr hq)
  | oldest hnone he => exact .oldest (fun e he hs hq => hnone e he hs ((hpq e he hs).mpr hq)) he
  | nothing hnone => exact .nothing hnone

/-- Which edge a run takes as the first branch, by its text, and when that is the same by its
reading. -/
structure FollowsFirstBranch (g : Graph) (node : Node) : Prop where
  by_text : g.Takes node.id (·.handle = some firstBranch) (g.nextEdge? node)
  text_read : IsFirstBranch (some firstBranch)
  read_iff : ∀ handle, IsFirstBranch handle ↔ ∃ digits, Names handle .branch digits ∧
    digits.length ≤ longestRow ∧ ∀ c ∈ digits, digitValue c = 0
  by_reading : (∀ e ∈ g.edges, e.source = node.id → IsFirstBranch e.handle →
    e.handle = some firstBranch) → g.Takes node.id (fun e => IsFirstBranch e.handle) (g.nextEdge? node)

theorem followsFirstBranch (g : Graph) (node : Node) (hb : node.kind.isBranching = true) :
    g.FollowsFirstBranch node := by
  have htext : g.Takes node.id (·.handle = some firstBranch) (g.nextEdge? node) := by
    rw [takes_iff, nextEdge?, if_pos hb]
  refine ⟨htext, isFirstBranch_firstBranch, fun _ => isFirstBranch_iff, fun hplain => ?_⟩
  refine htext.congr fun e he hs => ⟨fun hh => ?_, hplain e he hs⟩
  rw [hh]
  exact isFirstBranch_firstBranch

open Simulation.Player (graded) in
theorem graded_followsFirstBranch : ∃ node, graded.node? "grade" = some node ∧
    node.kind.isBranching = true ∧
    graded.nextEdge? node = some ⟨"firm", "grade", "jar", some "branch-0"⟩ ∧
    graded.FollowsFirstBranch node :=
  ⟨_, rfl, rfl, by decide, followsFirstBranch graded _ rfl⟩

/-- Both edges were added with their handles checked. The second one has a zero too many. -/
def padded : Graph :=
  Graph.empty.editAll
    [.addNode ⟨"d", .decision, .ofBody (.decision ["pass"]) "" "", .origin⟩,
      .addNode ⟨"t", .finish, .empty .items, .origin⟩, .connect "d" "t" none,
      .connect "d" "t" (some "branch-00")]

theorem padded_branch_passed_over : padded.Built ∧ ∃ node, padded.node? "d" = some node ∧
    node.kind.isBranching = true ∧
    padded.LeavesFirst "d" (fun e => IsFirstBranch e.handle)
      ⟨"e-d-t-branch-00", "d", "t", some "branch-00"⟩ ∧
    padded.nextEdge? node = some ⟨"e-d-t", "d", "t", none⟩ ∧
    ¬ padded.Takes "d" (fun e => IsFirstBranch e.handle) (padded.nextEdge? node) := by
  have hfirst : (padded.outgoing "d").find? (fun e => IsFirstBranch e.handle) =
      some ⟨"e-d-t-branch-00", "d", "t", some "branch-00"⟩ := by decide
  refine ⟨Built.empty.editAll (by decide), _, rfl, rfl, find?_outgoing_eq_some_iff.mp hfirst,
    by decide, ?_⟩
  rw [takes_iff, hfirst]
  decide

end Graph

end Flowsheet
