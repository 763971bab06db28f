import Flowsheet.Proofs.Document.NormalForm
import Flowsheet.Proofs.Studio.Preview

/-! What a studio keeps. The archive is written by `save` alone, and what was saved is what a new
studio over the archive shows, whatever was done in between without saving it again. -/

namespace Flowsheet

namespace Graph

theorem baseEdgeId_ne_empty (source target : String) (handle : Option String) :
    baseEdgeId source target handle ≠ "" := by
  have hlead : toString "e-" ≠ "" := by decide
  unfold baseEdgeId
  split
  · split <;> simp [hlead]
  · simp [hlead]

theorem candidateEdgeId_ne_empty {base : String} (hb : base ≠ "") (n : Nat) :
    candidateEdgeId base n ≠ "" := by
  cases n with
  | zero => exact hb
  | succ n => simp [candidateEdgeId]

end Graph

namespace Studio

variable {op : Operation} {s t : Studio} {process : String} {g : Graph}

/-- A payload that is given with the operation was read from data. -/
def Operation.Admissible : Operation → Prop
  | .addNode _ _ payload _ _ => ∀ p ∈ payload, p.Read
  | .updatePayload _ _ payload => payload.Read
  | _ => True

theorem Operation.Edits.admissible {e : Graph.Edit} (he : op.Edits e) (hop : op.Admissible) :
    e.Admissible := by
  cases he with
  | @addNode kind payload position id node hn =>
    obtain ⟨-, rfl, -⟩ := Node.make_eq_ok hn
    exact ⟨payload, hop, hn⟩
  | updatePayload => exact hop
  | connect | removeNode => trivial

/-- An edge that an operation makes gets an id, since it is connected and not added as it is. -/
theorem Operation.Edits.named {e : Graph.Edit} (he : op.Edits e) (hg : g.Keyed)
    (hids : ∀ d ∈ g.edges, d.id ≠ "") : ∀ d ∈ (g.tryEdit e).edges, d.id ≠ "" := by
  obtain ⟨nodes, edges, hc, hh⟩ := Graph.change_tryEdit hg e
  rw [hh.edges_eq]
  cases hc with
  | unchanged | addNode | updatePayload | moveNode => exact hids
  | removeNode | removeEdge => exact fun d hd => hids d (List.mem_filter.mp hd).1
  | @addEdge _ edge check _ _ _ hedge =>
    intro d hd
    rcases List.mem_append.mp hd with hd | hd
    · exact hids d hd
    · rw [List.mem_singleton.mp hd]
      rcases hedge with rfl | ⟨-, hid⟩
      · cases he
      · rw [hid]
        exact Graph.candidateEdgeId_ne_empty (Graph.baseEdgeId_ne_empty _ _ _) _

/-- What is on the sheets was read, or was made out of what was read, and can be read again. -/
structure Readable (g : Graph) : Prop where
  reachable : g.Reachable
  ids : ∀ e ∈ g.edges, e.id ≠ ""

theorem readable_of_loadGraph {document : Value} (hg : Document.loadGraph document = .ok g) :
    Readable g :=
  ⟨.loaded hg, (Document.filled_of_loadGraph hg).edges_filled⟩

def Recorded (s : Studio) : Prop := ∀ n, Readable (s.sheet n)

namespace Recorded

theorem move (hs : s.Recorded) (hop : op.Admissible) (hm : Move op s t) : t.Recorded := by
  cases hm with
  | loaded _ _ _ hg => exact sheets_laidOut hs (readable_of_loadGraph hg) _
  | @replaced process _ _ _ _ hg => exact sheets_laidOut hs (readable_of_loadGraph hg) process
  | @edited _ n _ _ _ _ he hg =>
    have hread := hs n
    have hedited : Readable ((s.sheet n).tryEdit _) :=
      ⟨hread.reachable.edited (he.admissible hop),
        he.named hread.reachable.sound.toKeyed hread.ids⟩
    rw [Graph.tryEdit, hg] at hedited
    exact sheets_written hs hedited n
  | _ => exact hs

theorem afterAll {ops : List Operation} (hs : s.Recorded) (hops : ∀ op ∈ ops, op.Admissible) :
    (s.afterAll ops).Recorded := by
  induction ops generalizing s with
  | nil => exact hs
  | cons op ops ih =>
    obtain ⟨hop, hrest⟩ := List.forall_mem_cons.mp hops
    exact ih (after_keeps (fun _ _ hm hk => hk.move hop hm) hs) hrest

end Recorded

theorem recorded_reopened (s : Studio) : s.reopened.Recorded := fun _ =>
  ⟨.empty, Document.filled_empty.edges_filled⟩

/-- The document stands in the archive under the process, which is listed. -/
structure Stored (s : Studio) (process : String) (document : Value) : Prop where
  listed : s.processes.contains process = true
  document_eq : s.archive.documents.get? process = some document

theorem documents_move (hm : Move op s t) (hop : op ≠ .save process) :
    t.archive.documents.get? process = s.archive.documents.get? process := by
  cases hm with
  | @saved other n hsave =>
    have hne : process ≠ other := fun he => hop (he ▸ hsave)
    rw [archived, Archive.save, Table.get?_set, if_neg hne]
  | _ => rfl

theorem documents_after (hop : op ≠ .save process) (s : Studio) :
    (s.after op).archive.documents.get? process = s.archive.documents.get? process :=
  after_keeps (P := fun t => t.archive.documents.get? process = s.archive.documents.get? process)
    (fun _ _ hm hk => (documents_move hm hop).trans hk) rfl

namespace Stored

variable {document : Value}

theorem afterAll {ops : List Operation} (hs : s.Stored process document)
    (hops : Operation.save process ∉ ops) : (s.afterAll ops).Stored process document := by
  induction ops generalizing s with
  | nil => exact hs
  | cons op ops ih =>
    obtain ⟨hop, hrest⟩ := not_or.mp (mt List.mem_cons.mpr hops)
    refine ih ⟨after_keeps (fun _ _ => listed_move) hs.listed, ?_⟩ hrest
    rw [documents_after (Ne.symm hop), hs.document_eq]

theorem loadGraph_eq (hs : s.Stored process document) :
    s.archive.loadGraph process = Document.loadGraph document := by
  rw [Archive.loadGraph, Archive.load, hs.document_eq]
  rfl

end Stored

theorem outcome_graph_of_stored (hp : s.processes.contains process = true)
    (ho : s.opened.get? process = none) (hg : s.archive.loadGraph process = .ok g) :
    outcome (graph process) s = (.ok g, s.laidOut process g) := by
  have hsheet : outcome (sheetOf process) s = (.ok s.sheets.length, s.laidOut process g) := by
    unfold sheetOf
    rw [outcome_bind_of_ok (outcome_requireProcess hp), outcome_get_bind, ho]
    exact outcome_attempt_bind_of_ok hg
  have hlast : (s.laidOut process g).sheet s.sheets.length = g := by simp [sheet_laidOut]
  unfold graph
  rw [outcome_bind_of_ok hsheet, outcome_get_bind, hlast]
  rfl

theorem answer_save (s : Studio) (process : String) :
    (outcome (save process) s).1 = (outcome (document process) s).1 := by
  unfold save document
  rw [outcome_bind, outcome_bind]
  cases (outcome (graph process) s).1 <;> rfl

/-- What is saved of the process stays, until it is saved again, and a new studio shows it. -/
structure Durable (s : Studio) (process : String) : Prop where
  stored_by_save : ∀ op, op ≠ .save process →
    (s.after op).archive.documents.get? process = s.archive.documents.get? process
  saved_eq : (outcome (save process) s).1 = (outcome (document process) s).1
  stored : ∀ saved t, outcome (save process) s = (.ok saved, t) →
    t.archive.documents.get? process = some saved
  shown : ∀ saved t, outcome (save process) s = (.ok saved, t) →
    ∀ later, Operation.save process ∉ later →
    ∀ fresh : Studio, fresh.processes = (t.afterAll later).processes →
      fresh.archive = (t.afterAll later).archive →
      (outcome (document process) fresh.reopened).1 = .ok saved

theorem Stored.shown {saved : Value} (hs : s.Stored process saved)
    (hg : Document.loadGraph saved = .ok g) (hd : Document.dumpGraph g = saved) :
    (outcome (document process) s.reopened).1 = .ok saved := by
  have hload : s.reopened.archive.loadGraph process = .ok g := hs.loadGraph_eq.trans hg
  have hgraph := outcome_graph_of_stored (s := s.reopened) hs.listed rfl hload
  unfold document
  rw [outcome_bind_of_ok hgraph, hd]
  rfl

theorem durable_afterAll (s : Studio) {ops : List Operation} (hops : ∀ op ∈ ops, op.Admissible)
    (process : String) : (s.reopened.afterAll ops).Durable process where
  stored_by_save op hop := documents_after hop _
  saved_eq := answer_save _ process
  stored _ _ hsave := ((reaches_save process).of_ok hsave).1
  shown saved t hsave later hlater fresh hprocesses harchive := by
    have hsaves := reaches_save process (s := s.reopened.afterAll ops)
    have hrecorded : t.Recorded := by
      have hadmissible : (Operation.save process).Admissible := trivial
      have hkept := hsaves.keeps (fun _ _ hm hk => Recorded.move hk hadmissible hm)
        ((recorded_reopened s).afterAll hops)
      rwa [hsave] at hkept
    obtain ⟨hdocument, n, ho, rfl⟩ := hsaves.of_ok hsave
    -- The sheet is read back as it was, but for what the document does not tell.
    obtain ⟨g, hg, hd⟩ := (hrecorded n).reachable.dump_settled (hrecorded n).ids
    have hstored := Stored.afterAll ⟨ho.listed, hdocument⟩ hlater
    have hfresh : fresh.Stored process (Document.dumpGraph (t.sheet n)) := by
      constructor
      · rw [hprocesses, hstored.listed]
      · rw [harchive, hstored.document_eq]
    exact hfresh.shown hg hd

/-- The share in the document has a unit, which a document that is written does not tell. -/
def weighing : List Operation :=
  [.addProcess "Weighing" "" (some "weighing"),
    .replaceWorkflow "weighing" Document.weighedDocument,
    .addNode "weighing" .finish none (some "jar") .origin, .connect "weighing" "p" "jar" none,
    .updatePayload "weighing" "jar" (.empty Kind.finish.shape)]

def unsavedWeighing : List Operation :=
  [.removeNode "weighing" "p", .replaceWorkflow "weighing" .null, .start "weighing" []]

theorem weighing_durable : (∀ op ∈ weighing, op.Admissible) ∧
    ∃ saved t, outcome (save "weighing") (Studio.empty.reopened.afterAll weighing) =
        (.ok saved, t) ∧
      (outcome (document "weighing") (t.afterAll unsavedWeighing)).1 = .ok Document.empty ∧
      (outcome (document "weighing") (t.afterAll unsavedWeighing).reopened).1 = .ok saved := by
  have hops : ∀ op ∈ weighing, op.Admissible := by
    simp [weighing, Operation.Admissible, Document.read_empty]
  have hdurable := durable_afterAll Studio.empty hops "weighing"
  refine ⟨hops, _, _, rfl, rfl, ?_⟩
  exact hdurable.shown _ _ rfl unsavedWeighing (by simp [unsavedWeighing]) _ rfl rfl

end Studio

end Flowsheet
