import Flowsheet.Proofs.Studio.Agreement

/-! Histories in which several processes are worked on. What is answered for one of them does not
depend on the operations that are on another. -/

namespace Flowsheet.Studio

variable {s t : Studio} {p q : String}

/-- An operation, and the number from which an identifier is made up if it needs one. The numbers
are given because those that a studio takes also count what was done for other processes. -/
structure Request where
  number : Nat
  operation : Operation

def respond (s : Studio) (r : Request) : Except Fault Answer × Studio :=
  outcome (perform r.operation) (s.numbered r.number)

/-- The answers in a history to the operations on the process. -/
def answersFor (q : String) (s : Studio) : List Request → List (Except Fault Answer)
  | [] => []
  | r :: rest =>
    if r.operation.process? = some q then (s.respond r).1 :: answersFor q (s.respond r).2 rest
    else answersFor q (s.respond r).2 rest

theorem after_eq_respond (s : Studio) (op : Operation) :
    s.after op = (s.respond ⟨s.identifiers, op⟩).2 := rfl

theorem Steady.numbered (hs : s.Steady) (number : Nat) : (s.numbered number).Steady where
  follows other preview hv := { hs.follows other preview hv with }
  sheet_built := hs.sheet_built

theorem Steady.respond (hs : s.Steady) (r : Request) : (s.respond r).2.Steady :=
  after_keeps (fun _ _ hm hk => hk.move hm) (hs.numbered r.number)

namespace Alike

theorem respond_left (h : Alike q s t) {r : Request} (hr : r.operation.process? = some p)
    (hne : q ≠ p) : Alike q (s.respond r).2 t where
  laid_left := (h.numbered r.number).laid_left.after r.operation
  laid_right := h.laid_right
  view_eq := (congrArg View.shown (view_after (h.numbered r.number).laid_left hr hne)).trans h.view_eq

theorem agrees_respond (h : Alike q s t) (hs : s.Steady) (ht : t.Steady) {r : Request}
    (hr : ∀ p ∈ r.operation.process?, p = q) : Agrees q Same (s.respond r) (t.respond r) :=
  agrees_perform (h.numbered r.number) (hs.numbered r.number) (ht.numbered r.number) rfl hr

theorem respond (h : Alike q s t) (hs : s.Steady) (ht : t.Steady) (r : Request) :
    Alike q (s.respond r).2 (t.respond r).2 := by
  by_cases hr : ∀ p ∈ r.operation.process?, p = q
  · exact (h.agrees_respond hs ht hr).alike
  · -- It is on a process which is neither of the two, and leaves both studios as they are for this.
    push Not at hr
    obtain ⟨p, hp, hne⟩ := hr
    exact ((h.respond_left hp hne.symm).symm.respond_left hp hne.symm).symm

theorem answersFor_filter (h : Alike q s t) (hs : s.Steady) (ht : t.Steady) (hne : q ≠ p)
    (requests : List Request) :
    answersFor q s requests =
      answersFor q t (requests.filter (·.operation.process? ≠ some p)) := by
  induction requests generalizing s t with
  | nil => rfl
  | cons r rest ih =>
    by_cases hp : r.operation.process? = some p
    · have hq : ¬ r.operation.process? = some q := by simpa [hp] using hne.symm
      rw [List.filter_cons_of_neg (by simpa using hp), answersFor, if_neg hq]
      exact ih (h.respond_left hp hne) (hs.respond r) ht
    · rw [List.filter_cons_of_pos (by simpa using hp), answersFor, answersFor,
        ih (h.respond hs ht r) (hs.respond r) (ht.respond r)]
      by_cases hq : r.operation.process? = some q
      · have hr : ∀ p ∈ r.operation.process?, p = q := by simp [hq, eq_comm]
        rw [if_pos hq, if_pos hq, (h.agrees_respond hs ht hr).answer_eq]
      · rw [if_neg hq, if_neg hq]

end Alike

/-- What is asked of one process does not depend on what is done for the other. -/
structure Separate (s : Studio) (p q : String) : Prop where
  document_eq : ∀ op, op.process? = some p →
    (outcome (document q) (s.after op)).1 = (outcome (document q) s).1
  session_eq : ∀ op, op.process? = some p → (s.after op).session q = s.session q
  stored_eq : ∀ op, op.process? = some p →
    (s.after op).archive.documents.get? q = s.archive.documents.get? q
  answers_eq : ∀ requests : List Request,
    answersFor q s requests = answersFor q s (requests.filter (·.operation.process? ≠ some p))

theorem Reachable.separate (hs : s.Reachable) (hne : p ≠ q) : s.Separate p q := by
  have hself : Alike q s s := ⟨hs.laid, hs.laid, rfl⟩
  have hafter : ∀ op, op.process? = some p → Alike q (s.after op) s := by
    intro op hop
    rw [after_eq_respond]
    exact hself.respond_left hop hne.symm
  constructor
  · exact fun op hop => (agrees_document (hafter op hop)).answer_eq
  · exact fun op hop => (hafter op hop).session_eq
  · exact fun op hop => congrArg View.stored (hafter op hop).view_eq
  · exact hself.answersFor_filter hs.steady hs.steady hne.symm

/-- Two lines of one plant, with a node each. -/
def plant : Studio :=
  Studio.empty.afterAll
    [.addProcess "Pressing" "" (some "pressing"), .addProcess "Drying" "" (some "drying"),
      .addNode "pressing" .start none (some "pick") .origin,
      .addNode "drying" .start none (some "rack") .origin]

/-- The two lines are worked on in turn, and their nodes cannot be connected with each other. -/
def shift : List Request :=
  [⟨7, .addNode "pressing" .finish none none .origin⟩,
    ⟨8, .addNode "drying" .finish none none .origin⟩, ⟨0, .start "drying" []⟩,
    ⟨0, .connect "pressing" "pick" "rack" none⟩, ⟨0, .save "pressing"⟩, ⟨0, .step "drying"⟩]

theorem plant_separate : plant.Reachable ∧ "pressing" ≠ "drying" ∧
    plant.Separate "pressing" "drying" ∧ (answersFor "drying" plant shift).length = 3 := by
  have hr : plant.Reachable := (Reachable.reopened Studio.empty).afterAll _
  have hne : "pressing" ≠ "drying" := by decide
  exact ⟨hr, hne, hr.separate hne, by decide⟩

end Flowsheet.Studio
