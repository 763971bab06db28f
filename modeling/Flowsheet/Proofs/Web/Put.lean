import Flowsheet.Proofs.Web.Handling

/-! Putting a document in the place of a workflow. A request that is refused leaves the studio as it
was, and one that is answered has stored its document. Between them is a document that cannot be
written, for a number that is not finite or for half a character: it is stored, and then cannot be
sent back. -/

namespace Flowsheet

namespace Value

mutual

def isPublic : Value → Bool
  | .list items => arePublic items
  | .object entries => entriesPublic entries
  | _ => true

def arePublic : List Value → Bool
  | [] => true
  | v :: rest => isPublic v && arePublic rest

def entriesPublic : List (String × Value) → Bool
  | [] => true
  | (key, v) :: rest => !isPrivateKey key && isPublic v && entriesPublic rest

end

mutual

theorem visible_of_isPublic {v : Value} (hv : v.isPublic = true) : v.visible = v := by
  cases v with
  | list items => rw [visible, visibleItems_of_arePublic hv]
  | object entries => rw [visible, visibleEntries_of_entriesPublic hv]
  | _ => rfl

theorem visibleItems_of_arePublic {items : List Value} (hi : arePublic items = true) :
    visibleItems items = items := by
  cases items with
  | nil => rfl
  | cons v rest =>
    obtain ⟨hv, hrest⟩ := Bool.and_eq_true_iff.mp hi
    rw [visibleItems, visible_of_isPublic hv, visibleItems_of_arePublic hrest]

theorem visibleEntries_of_entriesPublic {entries : List (String × Value)}
    (he : entriesPublic entries = true) : visibleEntries entries = entries := by
  cases entries with
  | nil => rfl
  | cons entry rest =>
    obtain ⟨key, v⟩ := entry
    obtain ⟨hfirst, hrest⟩ := Bool.and_eq_true_iff.mp he
    obtain ⟨hkey, hv⟩ := Bool.and_eq_true_iff.mp hfirst
    rw [visibleEntries, if_neg (by simpa using hkey), visible_of_isPublic hv,
      visibleEntries_of_entriesPublic hrest]

end

end Value

namespace Studio

variable {s : Studio} {p q : String} {g : Graph} {load : Except Document.Fault Graph}
  {fault : Document.Fault}

/-- The graph lies in the place of the one of the process, which is not simulated, and is stored. -/
def replaced (s : Studio) (p : String) (g : Graph) : Studio :=
  ((s.laidOut p g).withoutPreview p).archived p g

theorem Laid.view_replaced (hs : s.Laid) (p : String) (g : Graph) (q : String) :
    (s.replaced p g).view q = if q = p then
      { s.view q with stored := some (Document.dumpGraph g), graph := some g, session := none }
    else s.view q := by
  rw [replaced, view_archived, view_withoutPreview, view_laidOut hs]
  split <;> rfl

theorem Laid.liesOpen_installed (hs : s.Laid) (hp : s.processes.contains p = true) (g : Graph) :
    ((s.laidOut p g).withoutPreview p).LiesOpen p g where
  laid := { hs.laidOut p g with }
  listed := hp
  graph_eq := by rw [view_withoutPreview, if_pos rfl, view_laidOut hs, if_pos rfl]

theorem Laid.liesOpen_replaced (hs : s.Laid) (hp : s.processes.contains p = true) (g : Graph) :
    (s.replaced p g).LiesOpen p g where
  laid := { hs.laidOut p g with }
  listed := hp
  graph_eq := by rw [hs.view_replaced, if_pos rfl]

theorem outcome_requireProcess_of_missing (hp : s.processes.contains p = false) :
    outcome (requireProcess p) s = (.error (.missingProcess p), s) := by
  rw [requireProcess, outcome_get_bind, hp]
  rfl

theorem outcome_install_of_missing (hp : s.processes.contains p = false) :
    outcome (install p load) s = (.error (.missingProcess p), s) := by
  rw [install, outcome_bind_of_error (outcome_requireProcess_of_missing hp)]

theorem outcome_install_of_error (hp : s.processes.contains p = true) (hl : load = .error fault) :
    outcome (install p load) s = (.error (.document fault), s) := by
  rw [install, outcome_bind_of_ok (outcome_requireProcess hp), hl]
  rfl

theorem outcome_install_of_ok (hp : s.processes.contains p = true) (hl : load = .ok g) :
    outcome (install p load) s = (.ok g, (s.laidOut p g).withoutPreview p) := by
  rw [install, outcome_bind_of_ok (outcome_requireProcess hp), hl]
  rfl

theorem LiesOpen.outcome_save (h : s.LiesOpen p g) :
    outcome (save p) s = (.ok (Document.dumpGraph g), s.archived p g) := by
  rw [save, outcome_bind_of_ok h.outcome_graph]
  rfl

theorem LiesOpen.outcome_document (h : s.LiesOpen p g) :
    outcome (document p) s = (.ok (Document.dumpGraph g), s) := by
  rw [document, outcome_bind_of_ok h.outcome_graph]
  rfl

end Studio

namespace Web

open Studio Document

variable {server : Server} {s t : Studio} {request fetch : Request} {p : String} {g : Graph}
  {r : Reply}

def Outcome.status? : Outcome → Option Nat
  | .reply r => some r.status
  | _ => none

theorem status?_sent_ne (hr : r.status ≠ 200) : (r.sent server).status? ≠ some 200 := by
  have hstatus : r.visible.status = r.status := by
    unfold Reply.visible
    split <;> rfl
  unfold Reply.sent
  cases r.visible.content.obstacle? server with
  | none => simpa [Outcome.status?, hstatus] using hr
  | some _ => simp [Outcome.status?]

theorem sent_value (v : Value) :
    (Reply.value v).sent server =
      if v.visible.isFinite = false then .unwritable .infinite
      else if v.visible.isWhole server.standIns = false then .unwritable .half
      else .reply (.value v.visible) := by
  have hsent : (Reply.value v).sent server =
      (Content.obstacle? server (.value v.visible)).elim (.reply (.value v.visible)) .unwritable :=
    rfl
  rw [hsent, Content.obstacle?]
  cases v.visible.isFinite <;> cases v.visible.isWhole server.standIns <;> rfl

theorem status?_sent_value (v : Value) :
    ((Reply.value v).sent server).status? = some 200 ↔
      v.visible.isFinite = true ∧ v.visible.isWhole server.standIns = true := by
  rw [sent_value]
  cases v.visible.isFinite <;> cases v.visible.isWhole server.standIns <;>
    simp [Outcome.status?, Reply.value]

section

variable {a : Action Reply} {route : Route}
  (hroute : Route.ofPath? request.path = some route)
  (ha : respond? server request route = some a)

include hroute ha

theorem outcome_act : outcome (act server request) s = outcome a s := by
  rw [act, hroute]
  dsimp only
  rw [ha]
  rfl

theorem handle_of_ok (ho : outcome a s = (.ok r, t)) :
    handle server request s = (r.sent server, t) := by
  have hrun : (act server request).run s = (.ok r, t) := (outcome_act hroute ha).trans ho
  rw [handle, hrun]

theorem handle_of_error {fault : Studio.Fault} (ho : outcome a s = (.error fault, t)) :
    handle server request s = (.failed fault, t) := by
  have hrun : (act server request).run s = (.error fault, t) := (outcome_act hroute ha).trans ho
  rw [handle, hrun]

end

section

variable {α : Type} {a : Action α} {use : α → Action Reply} {x : α} {fault : Studio.Fault}
  {status? : Studio.Fault → Option Nat}

theorem outcome_answering_of_ok (ho : outcome a s = (.ok x, t)) :
    outcome (do reading (← caught status? a) use) s = outcome (use x) t := by
  have hwrapped : outcome (do return .ok (← a) : Action (Except Reply α)) s = (.ok (.ok x), t) := by
    rw [outcome_bind_of_ok ho]
    rfl
  have hcaught : outcome (caught status? a) s = (.ok (.ok x), t) := by
    rw [caught, outcome_tryCatch, hwrapped]
  rw [outcome_bind_of_ok hcaught, reading]

theorem outcome_answering_of_error (ho : outcome a s = (.error fault, t)) :
    outcome (do reading (← caught status? a) use) s =
      match status? fault with
      | some status => (.ok (.detail status (.text fault.message)), t)
      | none => (.error fault, t) := by
  have hwrapped : outcome (do return .ok (← a) : Action (Except Reply α)) s = (.error fault, t) :=
    outcome_bind_of_error ho
  have hcaught : outcome (caught status? a) s = outcome (replied status? fault) t := by
    rw [caught, outcome_tryCatch, hwrapped]
  unfold replied at hcaught
  cases hf : status? fault with
  | some status =>
    rw [hf] at hcaught
    exact outcome_bind_of_ok hcaught
  | none =>
    rw [hf] at hcaught
    exact outcome_bind_of_error hcaught

end

theorem status_unreadable (refusal : Value.Refusal) : (unreadable refusal).status ≠ 200 := by
  cases refusal with
  | malformed => exact (by decide : 422 ≠ 200)
  | longInteger | tooDeep => exact (by decide : 400 ≠ 200)

theorem status_of_readJson {text : String} (hr : readJson server text = .error r) :
    r.status ≠ 200 := by
  unfold readJson at hr
  split at hr
  · obtain ⟨refusal, -, rfl⟩ := mapError_eq_error.mp hr
    exact status_unreadable refusal
  · cases hr
    exact (by decide : 400 ≠ 200)

theorem status_of_read {body : Body} (hr : body.read server = .error r) : r.status ≠ 200 := by
  unfold Body.read at hr
  split at hr
  · cases hr
  · cases hr
  · cases hr
  · split at hr
    · cases hr
    · cases hr
      exact (by decide : 400 ≠ 200)
  · exact status_of_readJson (map_eq_error.mp hr)
  · cases hr

theorem status_of_checkedBody {α : Type} {check : Value → Checked α} {v : Value}
    (hr : checkedBody server check v = .error r) : r.status ≠ 200 := by
  have hrefusal : ∀ {c : Checked α}, c.toExcept.mapError (refusal v) = .error r →
      r.status ≠ 200 := by
    intro c hc
    obtain ⟨problems, -, rfl⟩ := mapError_eq_error.mp hc
    exact (by decide : 422 ≠ 200)
  obtain hscreened | ⟨-, -, hlast⟩ := bind_eq_error.mp hr
  · exact hrefusal hscreened
  · exact hrefusal hlast

/-- A body is not refused with the status of a success. -/
theorem status_of_required {α : Type} {check : Value → Checked α} {body : Body}
    (hr : body.required server check = .error r) : r.status ≠ 200 := by
  obtain hread | ⟨v, -, hv⟩ := bind_eq_error.mp hr
  · exact status_of_read hread
  · cases v with
    | none =>
      cases hv
      exact (by decide : 422 ≠ 200)
    | some v => exact status_of_checkedBody hv

theorem putStatus?_ne_some (fault : Studio.Fault) : putStatus? fault ≠ some 200 := by
  unfold putStatus? missingStatus?
  split <;> split <;> simp

/-- The graph that is sent with the request, if it can be read. -/
def Body.graph? (server : Server) (body : Body) : Option Graph :=
  (body.required server rows).toOption.bind fun sent => (graphOf server sent).toOption

section

variable {body : Body} {sent : Rows}

/-- What comes of a document that can be read, depending on what comes of its graph. -/
theorem outcome_putWorkflow (hb : body.required server rows = .ok sent) (p : String) (s : Studio) :
    outcome (putWorkflow server p body) s = outcome (do
      reading (← caught putStatus? (install p (graphOf server sent))) fun _ =>
        return .value (← save p)) s := by
  rw [putWorkflow, hb]
  rfl

theorem outcome_putWorkflow_of_ok (hs : s.Laid) (hb : body.required server rows = .ok sent)
    (hp : s.processes.contains p = true) (hg : graphOf server sent = .ok g) :
    outcome (putWorkflow server p body) s = (.ok (.value (dumpGraph g)), s.replaced p g) := by
  have hsave := (hs.liesOpen_installed hp g).outcome_save
  rw [outcome_putWorkflow hb, outcome_answering_of_ok (outcome_install_of_ok hp hg),
    outcome_bind_of_ok hsave]
  rfl

end

section

variable (hput : request.method = .put) (hroute : Route.ofPath? request.path = some (.workflow p))

include hput

theorem respond?_put :
    respond? server request (.workflow p) = some (putWorkflow server p request.body) := by
  rw [respond?, hput]

include hroute

theorem handle_put (ho : outcome (putWorkflow server p request.body) s = (.ok r, t)) :
    handle server request s = (r.sent server, t) :=
  handle_of_ok hroute (respond?_put hput) ho

/-- A document of which nothing can be installed is refused without effect. -/
theorem handle_put_of_fault {sent : Rows} {fault : Studio.Fault}
    (hb : request.body.required server rows = .ok sent)
    (hi : outcome (install p (graphOf server sent)) s = (.error fault, s)) :
    ∃ o : Outcome, o.status? ≠ some 200 ∧ handle server request s = (o, s) := by
  have ho := (outcome_putWorkflow hb p s).trans (outcome_answering_of_error hi)
  cases hf : putStatus? fault with
  | some status =>
    rw [hf] at ho
    have hstatus : status ≠ 200 := by
      rintro rfl
      exact putStatus?_ne_some fault hf
    exact ⟨_, status?_sent_ne hstatus, handle_put hput hroute ho⟩
  | none =>
    rw [hf] at ho
    exact ⟨.failed fault, nofun, handle_of_error hroute (respond?_put hput) ho⟩

/-- A request to put a document is refused without effect, or else the graph of the document lies
where the one of the process lay. -/
theorem handle_put_cases (hs : s.Laid) :
    (∃ o : Outcome, o.status? ≠ some 200 ∧ handle server request s = (o, s)) ∨
      ∃ g, request.body.graph? server = some g ∧ s.processes.contains p = true ∧
        handle server request s = ((Reply.value (dumpGraph g)).sent server, s.replaced p g) := by
  cases hb : request.body.required server rows with
  | error r =>
    have ho : outcome (putWorkflow server p request.body) s = (.ok r, s) := by
      rw [putWorkflow, hb]
      rfl
    exact .inl ⟨_, status?_sent_ne (status_of_required hb), handle_put hput hroute ho⟩
  | ok sent =>
    cases hp : s.processes.contains p with
    | false =>
      exact .inl (handle_put_of_fault hput hroute hb (outcome_install_of_missing hp))
    | true =>
      cases hg : graphOf server sent with
      | error fault =>
        exact .inl (handle_put_of_fault hput hroute hb (outcome_install_of_error hp hg))
      | ok g =>
        have hgraph : request.body.graph? server = some g := by
          rw [Body.graph?, hb]
          exact congrArg Except.toOption hg
        have ho := outcome_putWorkflow_of_ok hs hb hp hg
        exact .inr ⟨g, hgraph, rfl, handle_put hput hroute ho⟩

end

/-- A graph that lies open is shown as its document, and nothing is changed. -/
theorem handle_get (hget : fetch.method = .get)
    (hroute : Route.ofPath? fetch.path = some (.workflow p)) (h : s.LiesOpen p g) :
    handle server fetch s = ((Reply.value (dumpGraph g)).sent server, s) := by
  have ha : respond? server fetch (.workflow p) = some (getWorkflow p) := by
    rw [respond?, hget]
  have ho : outcome (getWorkflow p) s = (.ok (.value (dumpGraph g)), s) := by
    rw [getWorkflow, outcome_answering_of_ok h.outcome_document]
    rfl
  exact handle_of_ok hroute ha ho

/-- The graph was put in the place of the one of the process, and is what is shown from now on. -/
structure Replaced (server : Server) (p : String) (g : Graph) (s t : Studio) : Prop where
  graph_eq : (t.view p).graph = some g
  stored_eq : t.archive.documents.get? p = some (dumpGraph g)
  session_eq : t.session p = .idle
  others_eq : ∀ q, q ≠ p → t.view q = s.view q
  shown : ∀ later : List Request, (∀ request ∈ later, ¬ request.Edits p) →
    ∀ fetch : Request, fetch.method = .get → Route.ofPath? fetch.path = some (.workflow p) →
      (handle server fetch (handleAll server t later)).1 = (Reply.value (dumpGraph g)).sent server

theorem replaced_replaced (server : Server) (hs : s.Laid) (hp : s.processes.contains p = true)
    (g : Graph) : Replaced server p g s (s.replaced p g) where
  graph_eq := (hs.liesOpen_replaced hp g).graph_eq
  stored_eq := by rw [replaced, archived, Archive.save, Table.get?_set, if_pos rfl]
  session_eq := by
    have hview := congrArg View.session (hs.view_replaced p g p)
    rw [if_pos rfl] at hview
    rw [session]
    exact congrArg (fun session => session.getD .idle) hview
  others_eq q hne := by rw [hs.view_replaced, if_neg hne]
  shown later hlater fetch hget hroute := by
    rw [handle_get hget hroute (liesOpen_handleAll (hs.liesOpen_replaced hp g) hlater)]

/-- A document is put there as a whole or not at all. But that a number in it is not finite, or a
text not whole, is noticed only when it is there, and entries that are private are stored and not
shown. -/
structure PutsWhole (server : Server) (p : String) (request : Request) (s : Studio) : Prop where
  refused : (handle server request s).1.status? ≠ some 200 → (handle server request s).2 = s ∨
    ∃ g, request.body.graph? server = some g ∧
      ((dumpGraph g).visible.isFinite = false ∨
        (dumpGraph g).visible.isWhole server.standIns = false) ∧
      Replaced server p g s (handle server request s).2
  answered : (handle server request s).1.status? = some 200 →
    ∃ g, request.body.graph? server = some g ∧
      (handle server request s).1 = .reply (.value (dumpGraph g).visible) ∧
      ((dumpGraph g).isPublic = true →
        (handle server request s).1 = .reply (.value (dumpGraph g))) ∧
      Replaced server p g s (handle server request s).2
  clash : request.body.graph? server = none →
    (handle server request s).1.status? ≠ some 200 ∧ (handle server request s).2 = s

theorem Reachable.putsWhole (hs : Reachable server s) (hput : request.method = .put)
    (hroute : Route.ofPath? request.path = some (.workflow p)) :
    PutsWhole server p request s := by
  obtain ⟨o, ho, hh⟩ | ⟨g, hgraph, hp, hh⟩ := handle_put_cases hput hroute hs.laid
  · have hstatus : (handle server request s).1.status? ≠ some 200 := by rwa [hh]
    have hstate : (handle server request s).2 = s := by rw [hh]
    exact ⟨fun _ => .inl hstate, fun h => absurd h hstatus, fun _ => ⟨hstatus, hstate⟩⟩
  · have hreplaced : Replaced server p g s (handle server request s).2 := by
      rw [hh]
      exact replaced_replaced server hs.laid hp g
    have hstatus : (handle server request s).1.status? = some 200 ↔
        (dumpGraph g).visible.isFinite = true ∧
          (dumpGraph g).visible.isWhole server.standIns = true := by
      rw [hh]
      exact status?_sent_value _
    constructor
    · intro hrefused
      have hobstacle := not_and_or.mp (mt hstatus.mpr hrefused)
      simp only [Bool.not_eq_true] at hobstacle
      exact .inr ⟨g, hgraph, hobstacle, hreplaced⟩
    · intro hok
      obtain ⟨hfinite, hwhole⟩ := hstatus.mp hok
      have hreply : (handle server request s).1 = .reply (.value (dumpGraph g).visible) := by
        rw [hh, sent_value, hfinite, hwhole]
        rfl
      refine ⟨g, hgraph, hreply, fun hpublic => ?_, hreplaced⟩
      rw [hreply, Value.visible_of_isPublic hpublic]
    · intro hnone
      exact nomatch hnone.symm.trans hgraph

/-- A studio in which the line of the demonstration has no nodes yet. -/
def bare : Studio :=
  (outcome ensureDemo
    (Studio.empty.afterAll [.addProcess "Line" "" (some demoProcess)]).reopened).2

def demoServer : Server where
  address := "http://localhost"
  deepest := 100
  standIns := ⟨0x105000, by decide, by decide⟩
  readsAll := false

def demoWorkflow : String := "/api/processes/coco-processing/workflow"

/-- Puts a single node there, with one more entry. -/
def putEntry (key : String) (v : Value) : Request where
  method := .put
  path := demoWorkflow
  query := []
  body := .value (.object [("nodes", .list [.object [("id", .text "husk"),
    ("type", .text "action"), (key, v)]])])

def putNode (x : Value) : Request :=
  putEntry "position" (.object [("x", x), ("y", .int 0)])

def getNodes : Request := ⟨.get, demoWorkflow, [], .absent⟩

theorem putNode_putsWhole : Reachable demoServer bare ∧ (putNode (.int 40)).method = .put ∧
    Route.ofPath? (putNode (.int 40)).path = some (.workflow demoProcess) ∧
    PutsWhole demoServer demoProcess (putNode (.int 40)) bare ∧
    (handle demoServer (putNode (.int 40)) bare).1.status? = some 200 := by
  have hbare : Reachable demoServer bare := .opened _
  have hroute : Route.ofPath? (putNode (.int 40)).path = some (.workflow demoProcess) := by decide
  exact ⟨hbare, rfl, hroute, hbare.putsWhole rfl hroute, by decide +kernel⟩

/-- A document with an infinite number is not answered and stays all the same, and the workflow is
not shown any more. -/
theorem infinite_put_stays : ∃ request s, Reachable demoServer s ∧ request.method = .put ∧
    Route.ofPath? request.path = some (.workflow demoProcess) ∧
    (handle demoServer request s).1.status? ≠ some 200 ∧
    (handle demoServer request s).2.archive.documents.get? demoProcess ≠
      s.archive.documents.get? demoProcess ∧
    (handle demoServer getNodes s).1.status? = some 200 ∧
    (handle demoServer getNodes (handle demoServer request s).2).1.status? = none := by
  have hbefore : bare.archive.documents.get? demoProcess = none := by decide +kernel
  have hafter : ((handle demoServer (putNode (.text "inf")) bare).2.archive.documents.get?
      demoProcess).isSome = true := by decide +kernel
  refine ⟨putNode (.text "inf"), bare, .opened _, rfl, by decide, by decide +kernel, ?_,
    by decide +kernel, by decide +kernel⟩
  rw [hbefore]
  exact Option.isSome_iff_ne_none.mp hafter

-- Half a character is stored as well, and is in the way only when the document is sent back.
example :
    let half := String.ofList [demoServer.standIns.char 0xD800]
    let put := handle demoServer (putEntry "data" (.object [("label", .text half)])) bare
    put.1.status? = none ∧ (put.2.archive.documents.get? demoProcess).isSome = true := by
  decide +kernel

end Web

end Flowsheet
