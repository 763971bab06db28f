import Flowsheet.Proofs.Studio.Turn
import Flowsheet.Web.Site

/-! What a request can do to a studio. Whether it is refused or not, it goes along a path of moves,
and only two kinds of requests have moves that change the graph of a process. -/

namespace Flowsheet.Web

open Studio

variable {server : Server} {s t : Studio} {request : Request} {p : String} {g : Graph} {α : Type}

/-- The request is one of those that change the graph of the process, if it is not refused. -/
def Request.Edits (request : Request) (p : String) : Prop :=
  request.method = .put ∧ Route.ofPath? request.path = some (.workflow p) ∨
    request.method = .post ∧ Route.ofPath? request.path = some (.edges p)

section

variable {allowed : String → Prop}

theorem turns_reading {read : Except Reply α} {use : α → Action Reply}
    (hu : ∀ x, read = .ok x → Reaches (Turn allowed) s (use x) fun _ _ => True) :
    Reaches (Turn allowed) s (reading read use) fun _ _ => True := by
  cases read with
  | ok x => exact hu x rfl
  | error reply => exact reaches_pure trivial

theorem turns_caught {status? : Studio.Fault → Option Nat} {a : Action α}
    (ha : Reaches (Turn allowed) s a fun _ _ => True) :
    Reaches (Turn allowed) s (caught status? a) fun _ _ => True := by
  refine (ha.wrapped Except.ok).caught fun fault t => ?_
  unfold replied
  cases status? fault with
  | some status => exact reaches_pure trivial
  | none => exact reaches_throw fault

/-- What is done with an answer whose faults are replied to. -/
theorem turns_answering {status? : Studio.Fault → Option Nat} {a : Action α}
    {use : α → Action Reply} (ha : Reaches (Turn allowed) s a fun _ _ => True)
    (hu : ∀ x t, Reaches (Turn allowed) t (use x) fun _ _ => True) :
    Reaches (Turn allowed) s (do reading (← caught status? a) use) fun _ _ => True :=
  (turns_caught ha).bind fun _ t _ => turns_reading fun x _ => hu x t

theorem turns_selection? (id : String) :
    Reaches (Turn allowed) s (selection? id) fun _ _ => True := by
  refine Reaches.caught ?_ fun fault t => ?_
  · refine reaches_get_bind (reaches_attempt_bind fun process _ => ?_)
    exact (turns_graph id).bind fun g t _ => reaches_get_bind (reaches_pure trivial)
  · cases isMissing fault with
    | true => exact reaches_pure trivial
    | false => exact reaches_throw fault

theorem turns_overview (query : Fields) :
    Reaches (Turn allowed) s (overview query) fun _ _ => True := by
  unfold overview
  refine reaches_get_bind ?_
  dsimp only
  split
  · next id _ => exact (turns_selection? id).bind fun _ _ _ => reaches_pure trivial
  · have hnone : Reaches (Turn allowed) s (pure (none : Option Selection)) fun _ _ => True :=
      reaches_pure trivial
    exact hnone.bind fun _ _ _ => reaches_pure trivial

theorem turns_newProcess (body : Body) :
    Reaches (Turn allowed) s (newProcess body) fun _ _ => True := by
  refine turns_reading fun name _ => ?_
  refine (turns_addProcess ..).bind fun process t _ => ?_
  exact (turns_save process.id).bind fun _ _ _ => reaches_pure trivial

theorem turns_press (p button : String) :
    Reaches (Turn allowed) s (press p button) fun _ _ => True := by
  unfold press
  split
  · exact (turns_start p []).wrapped _
  · exact (turns_step p).wrapped _
  · exact (turns_stop p).wrapped _
  · exact reaches_pure trivial

theorem turns_control (p : String) (body : Body) :
    Reaches (Turn allowed) s (control p body) fun _ _ => True := by
  refine turns_reading fun button _ => Reaches.caught ?_ fun fault t => ?_
  · exact (turns_press p button).bind fun _ _ _ => reaches_pure trivial
  · cases isMissing fault with
    | true => exact reaches_pure trivial
    | false => exact reaches_throw fault

theorem turns_setOptions (body : Body) :
    Reaches (Turn allowed) s (setOptions body) fun _ _ => True :=
  turns_reading fun limit _ =>
    turns_answering (turns_setHistoryLimit limit) fun _ _ => reaches_pure trivial

theorem turns_getWorkflow (p : String) :
    Reaches (Turn allowed) s (getWorkflow p) fun _ _ => True :=
  turns_answering (turns_document p) fun _ _ => reaches_pure trivial

theorem turns_startSeeded (p : String) (body : Body) :
    Reaches (Turn allowed) s (startSeeded server p body) fun _ _ => True :=
  turns_reading fun _ _ => turns_answering (turns_start p _) fun _ _ => reaches_pure trivial

theorem turns_addEdge (hp : allowed p) (body : Body) :
    Reaches (Turn allowed) s (addEdge server p body) fun _ _ => True := by
  refine turns_reading fun c _ => ?_
  have hconnect := reaches_connect p c.source c.target c.handle (s := s)
  exact turns_answering (hconnect.turn fun _ hr => hr ▸ hp) fun _ _ => reaches_pure trivial

/-- What a body is read as has passed the check. -/
theorem exists_value_of_required {check : Value → Document.Checked α} {body : Body} {x : α}
    (hx : body.required server check = .ok x) : ∃ v, check v = .valid x := by
  obtain ⟨v, -, hv⟩ := bind_eq_ok.mp hx
  cases v with
  | none => cases hv
  | some v =>
    refine ⟨v, ?_⟩
    obtain ⟨-, -, hlast⟩ := bind_eq_ok.mp hv
    have hchecked := mapError_eq_ok.mp hlast
    cases hc : check v with
    | valid y =>
      rw [hc] at hchecked
      exact congrArg Document.Checked.valid (Except.ok.inj hchecked)
    | invalid problems =>
      rw [hc] at hchecked
      cases hchecked

/-- The graph that is installed is the one of the document that was sent. -/
theorem exists_document_of_graphOf {body : Body} {rows : Document.Rows}
    (hrows : body.required server Document.rows = .ok rows) (hg : graphOf server rows = .ok g) :
    ∃ v, Document.loadGraph v = .ok g := by
  obtain ⟨v, hv⟩ := exists_value_of_required hrows
  obtain ⟨-, -, hmade⟩ := bind_eq_ok.mp hg
  have hload : Document.loadGraph v = rows.toGraph := by
    cases v with
    | object entries =>
      rw [Document.loadGraph, hv]
      · rfl
      · simp
    | _ => cases hv
  exact ⟨v, hload.trans hmade⟩

theorem turns_install (hp : allowed p) {load : Except Document.Fault Graph}
    (hl : ∀ g, load = .ok g → ∃ v, Document.loadGraph v = .ok g) :
    Reaches (Turn allowed) s (install p load) fun _ _ => True := by
  have hrequired : Reaches (Move (.graph p)) s (requireProcess p) _ := reaches_requireProcess s p
  refine (hrequired.quiet fun _ => id).bind ?_
  rintro - t ⟨rfl, hlisted⟩
  refine reaches_attempt_bind fun g hg => ?_
  obtain ⟨v, hv⟩ := hl g hg
  have hturn : Turn allowed s ((s.laidOut p g).withoutPreview p) :=
    ⟨.replaceWorkflow p v, fun _ hr => hr ▸ hp, .replaced rfl hlisted hv⟩
  exact reaches_modify_bind hturn (reaches_pure trivial)

theorem turns_putWorkflow (hp : allowed p) (body : Body) :
    Reaches (Turn allowed) s (putWorkflow server p body) fun _ _ => True := by
  refine turns_reading fun rows hrows => ?_
  have hinstall : Reaches (Turn allowed) s (install p (graphOf server rows)) fun _ _ => True :=
    turns_install hp fun _ hg => exists_document_of_graphOf hrows hg
  exact turns_answering hinstall fun _ _ => (turns_save p).wrapped _

theorem turns_respond {route : Route} {a : Action Reply}
    (hroute : Route.ofPath? request.path = some route) (ha : respond? server request route = some a) :
    Reaches (Turn request.Edits) s a fun _ _ => True := by
  cases route with
  | overview =>
    simp only [respond?] at ha
    split at ha <;> cases ha
    exact turns_overview _
  | newProcess =>
    simp only [respond?] at ha
    split at ha <;> cases ha
    exact turns_newProcess _
  | control p =>
    simp only [respond?] at ha
    split at ha <;> cases ha
    exact turns_control p _
  | options =>
    simp only [respond?] at ha
    split at ha <;> cases ha
    exact turns_setOptions _
  | processes =>
    simp only [respond?] at ha
    split at ha <;> cases ha
    exact reaches_get_bind (reaches_pure trivial)
  | workflow p =>
    simp only [respond?] at ha
    split at ha
    · cases ha
      exact turns_getWorkflow p
    · next hput =>
      cases ha
      exact turns_putWorkflow (.inl ⟨hput, hroute⟩) _
    · cases ha
  | edges p =>
    simp only [respond?] at ha
    split at ha
    · next hpost =>
      cases ha
      exact turns_addEdge (.inr ⟨hpost, hroute⟩) _
    · cases ha
  | session p =>
    simp only [respond?] at ha
    split at ha <;> cases ha
    exact reaches_get_bind (reaches_pure trivial)
  | start p =>
    simp only [respond?] at ha
    split at ha <;> cases ha
    exact turns_startSeeded p _
  | step p =>
    simp only [respond?] at ha
    split at ha <;> cases ha
    exact (turns_step p).wrapped _
  | stop p =>
    simp only [respond?] at ha
    split at ha <;> cases ha
    exact (turns_stop p).wrapped _

theorem turns_act (server : Server) (request : Request) (s : Studio) :
    Reaches (Turn request.Edits) s (act server request) fun _ _ => True := by
  unfold act
  split
  · exact reaches_pure trivial
  · next route hroute =>
    cases ha : respond? server request route with
    | none => exact reaches_pure trivial
    | some a => exact turns_respond hroute ha

end

theorem handle_keeps {P : Studio → Prop} (hturn : ∀ s t, Turn request.Edits s t → P s → P t)
    (hs : P s) : P (handle server request s).2 := by
  have hkept := (turns_act server request s).keeps hturn hs
  have hstate : (handle server request s).2 = (outcome (act server request) s).2 := by
    unfold handle outcome
    split <;> simp only [*]
  rwa [hstate]

def handleAll (server : Server) (s : Studio) (requests : List Request) : Studio :=
  requests.foldl (fun s request => (handle server request s).2) s

/-- The states of a studio that is worked on through its web interface only. -/
inductive Reachable (server : Server) : Studio → Prop
  | opened (s : Studio) : Reachable server (outcome ensureDemo s.reopened).2
  | handled {s : Studio} (hs : Reachable server s) (request : Request) :
      Reachable server (handle server request s).2

theorem Reachable.laid (hs : Reachable server s) : s.Laid := by
  induction hs with
  | opened s =>
    have hdemo : Reaches (Turn fun _ => True) s.reopened ensureDemo _ :=
      turns_ensureDemo trivial s.reopened
    exact hdemo.keeps (fun _ _ ht hk => hk.turn ht) (laid_reopened s)
  | handled _ request ih => exact handle_keeps (fun _ _ ht hk => hk.turn ht) ih

theorem liesOpen_handleAll {requests : List Request} (h : s.LiesOpen p g)
    (hr : ∀ request ∈ requests, ¬ request.Edits p) :
    (handleAll server s requests).LiesOpen p g := by
  induction requests generalizing s with
  | nil => exact h
  | cons request rest ih =>
    obtain ⟨hfirst, hrest⟩ := List.forall_mem_cons.mp hr
    have hnext : (handle server request s).2.LiesOpen p g :=
      handle_keeps (fun _ _ ht hk => LiesOpen.turn hk hfirst ht) h
    exact ih hnext hrest

end Flowsheet.Web
