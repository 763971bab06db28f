import Flowsheet.Proofs.Document.RoundTrip
import Flowsheet.Proofs.Studio.Independence

/-! Histories in which somebody looks at the processes while others work on them. A look may load a
graph that was not open before, and is not noticed in what is answered or stored afterwards. -/

namespace Flowsheet.Studio

variable {s t : Studio} {q : String}

inductive Look where
  | graph (process : String)
  | document (process : String)
  | session (process : String)

def Look.operation : Look → Operation
  | .graph process => .graph process
  | .document process => .document process
  | .session process => .session process

inductive Entry where
  | request (r : Request)
  | look (l : Look)

def Entry.request? : Entry → Option Request
  | .request r => some r
  | .look _ => none

def requestsIn (entries : List Entry) : List Request :=
  entries.filterMap Entry.request?

theorem requestsIn_request (r : Request) (entries : List Entry) :
    requestsIn (.request r :: entries) = r :: requestsIn entries :=
  List.filterMap_cons_some rfl

theorem requestsIn_look (l : Look) (entries : List Entry) :
    requestsIn (.look l :: entries) = requestsIn entries :=
  List.filterMap_cons_none rfl

def passed (s : Studio) : Entry → Studio
  | .request r => (s.respond r).2
  | .look l => s.after l.operation

def passedAll (s : Studio) (entries : List Entry) : Studio :=
  entries.foldl passed s

/-- The answers to the requests. A request may be for what a look shows, and then it is one whose
answer counts. -/
def answersIn (s : Studio) : List Entry → List (Except Fault Answer)
  | [] => []
  | .request r :: rest => (s.respond r).1 :: answersIn (s.passed (.request r)) rest
  | .look l :: rest => answersIn (s.passed (.look l)) rest

/-- The only thing that a look does to what a studio has is to load a graph. -/
theorem Move.alike_of_look {l : Look} (hs : s.Laid) (hm : Move l.operation s t) (q : String) :
    Alike q t s := by
  cases hm with
  | numbered => exact ⟨{ hs with }, hs, rfl⟩
  | loaded _ _ ho hg => exact alike_laidOut hs ho hg q
  | edited _ _ he => cases l <;> cases he
  | product hop | task hop | process hop => cases l <;> cases hop
  | replaced hop | saved hop | started hop | stepped hop | stopped hop | adjusted hop =>
    cases l <;> cases hop

theorem alike_look (hs : s.Laid) (l : Look) (q : String) : Alike q (s.after l.operation) s :=
  after_keeps (P := fun t => Alike q t s)
    (fun _ _ hm h => (hm.alike_of_look h.laid_left q).trans h) ⟨hs, hs, rfl⟩

/-- Studios that show the same for every process. -/
structure Twin (s t : Studio) : Prop where
  alike : ∀ q, Alike q s t
  steady_left : s.Steady
  steady_right : t.Steady

theorem Reachable.twin (hs : s.Reachable) : Twin s s where
  alike _ := ⟨hs.laid, hs.laid, rfl⟩
  steady_left := hs.steady
  steady_right := hs.steady

namespace Twin

theorem look_left (h : Twin s t) (l : Look) : Twin (s.passed (.look l)) t where
  alike q := (alike_look (h.alike q).laid_left l q).trans (h.alike q)
  steady_left := after_keeps (fun _ _ hm hk => hk.move hm) h.steady_left
  steady_right := h.steady_right

theorem request (h : Twin s t) (r : Request) :
    Twin (s.passed (.request r)) (t.passed (.request r)) where
  alike q := (h.alike q).respond h.steady_left h.steady_right r
  steady_left := h.steady_left.respond r
  steady_right := h.steady_right.respond r

theorem answer_eq (h : Twin s t) (r : Request) : (s.respond r).1 = (t.respond r).1 := by
  have hprocess : ∀ p ∈ r.operation.process?, p = r.operation.process?.getD "" := by
    intro p hp
    rw [hp, Option.getD_some]
  exact ((h.alike _).agrees_respond h.steady_left h.steady_right hprocess).answer_eq

/-- A history goes as the one in which nobody looks. -/
theorem passedAll (h : Twin s t) (entries : List Entry) :
    s.answersIn entries = t.answersIn ((requestsIn entries).map .request) ∧
      Twin (s.passedAll entries) (t.passedAll ((requestsIn entries).map .request)) := by
  induction entries generalizing s t with
  | nil => exact ⟨rfl, h⟩
  | cons entry rest ih =>
    cases entry with
    | request r =>
      obtain ⟨hanswers, htwin⟩ := ih (h.request r)
      rw [requestsIn_request, List.map_cons, answersIn, answersIn, h.answer_eq r, hanswers]
      exact ⟨rfl, htwin⟩
    | look l =>
      obtain ⟨hanswers, htwin⟩ := ih (h.look_left l)
      rw [requestsIn_look, answersIn]
      exact ⟨hanswers, htwin⟩

end Twin

/-- Nobody can tell from the answers, or from what is there in the end, which of the two histories
it was. -/
structure Indistinct (s : Studio) (entries others : List Entry) : Prop where
  answers_eq : s.answersIn entries = s.answersIn others
  stored_eq : ∀ q, (s.passedAll entries).archive.documents.get? q =
    (s.passedAll others).archive.documents.get? q
  name_eq : ∀ id, (s.passedAll entries).productName id = (s.passedAll others).productName id
  processes_eq : (s.passedAll entries).processes = (s.passedAll others).processes

theorem indistinct_of_looks (s : Studio) {entries others : List Entry}
    (he : requestsIn entries = requestsIn others) : s.reopened.Indistinct entries others := by
  have htwin : Twin s.reopened s.reopened := (Reachable.reopened s).twin
  obtain ⟨hanswers, hpassed⟩ := htwin.passedAll entries
  obtain ⟨hothers, hleft⟩ := htwin.passedAll others
  rw [he] at hanswers hpassed
  have hview : ∀ q, ((s.reopened.passedAll entries).view q).shown =
      ((s.reopened.passedAll others).view q).shown := by
    intro q
    rw [(hpassed.alike q).view_eq, (hleft.alike q).view_eq]
  have hproducts : (s.reopened.passedAll entries).products =
      (s.reopened.passedAll others).products := congrArg View.products (hview "")
  constructor
  · rw [hanswers, hothers]
  · exact fun q => congrArg View.stored (hview q)
  · intro id
    rw [productName, productName, hproducts]
  · exact congrArg View.processes (hview "")

/-- Two lines over an archive of which one document can be loaded and the other cannot. -/
def mill : Studio :=
  { Studio.empty.afterAll
      [.addProcess "Pressing" "" (some "press"), .addProcess "Drying" "" (some "dry")] with
    archive := ⟨.ofEntries [("press", Document.weighedDocument), ("dry", .text "lost")]⟩ }

/-- The line that can be loaded is worked on, and the other is asked for. -/
def visitors : List Entry :=
  [.request ⟨0, .addNode "press" .finish none none .origin⟩, .request ⟨0, .document "dry"⟩,
    .request ⟨0, .start "press" []⟩, .request ⟨0, .save "press"⟩]

/-- Somebody looks at both lines first, and at the simulation while it is played. -/
def visitorsWatched : List Entry :=
  .look (.graph "press") :: .look (.document "dry") :: visitors.take 3 ++
    .look (.session "press") :: visitors.drop 3

theorem mill_indistinct :
    requestsIn visitorsWatched = requestsIn visitors ∧
      mill.reopened.Indistinct visitorsWatched visitors ∧
      (mill.reopened.answersIn visitors).map Except.isOk = [true, false, true, true] := by
  have hrequests : requestsIn visitorsWatched = requestsIn visitors := rfl
  exact ⟨hrequests, indistinct_of_looks mill hrequests, rfl⟩

end Flowsheet.Studio
