import Flowsheet.Proofs.Graph.Integrity
import Flowsheet.Proofs.Studio.Action

/-! The moves of a studio. Each operation goes along a path of them, also if it fails, so that what
every move keeps is kept by every operation. -/

namespace Flowsheet.Studio

open Simulation (Options Session Notice)

/-- The edits of a graph that an operation can stand for. -/
inductive Operation.Edits : Operation → Graph.Edit → Prop
  | addNode {kind : Kind} {payload : Option Payload} {position : Position} {id : String}
      {node : Node} (hn : Node.make id kind payload position = .ok node) (process : String)
      (given : Option String) :
      Operation.Edits (.addNode process kind payload given position) (.addNode node)
  | connect (process source target : String) (handle : Option String) :
      Operation.Edits (.connect process source target handle) (.connect source target handle)
  | updatePayload (process id : String) (payload : Payload) :
      Operation.Edits (.updatePayload process id payload) (.updatePayload id payload)
  | removeNode (process id : String) : Operation.Edits (.removeNode process id) (.removeNode id)

/-- What an operation can do to the studio at once. -/
inductive Move (op : Operation) (s : Studio) : Studio → Prop
  | numbered : Move op s { s with identifiers := s.identifiers + 1 }
  | product {key : String} {product : Product} {products : Catalog Product}
      (hop : op.process? = none) (ha : s.products.add key product = .ok products) :
      Move op s { s with products }
  | task {key : String} {task : ShopTask} {tasks : Catalog ShopTask}
      (hop : op.process? = none) (ha : s.tasks.add key task = .ok tasks) :
      Move op s { s with tasks }
  | process {key : String} {process : Workflow} {processes : Catalog Workflow}
      (hop : op.process? = none) (ha : s.processes.add key process = .ok processes) :
      Move op s { s with processes }
  | loaded {process : String} {g : Graph} (hop : op.process? = some process)
      (hp : s.processes.contains process = true) (ho : s.opened.get? process = none)
      (hg : s.archive.loadGraph process = .ok g) : Move op s (s.laidOut process g)
  | edited {process : String} {n : Nat} {e : Graph.Edit} {g : Graph}
      (hop : op.process? = some process) (ho : s.opened.get? process = some n)
      (he : op.Edits e) (hg : (s.sheet n).edit e = .ok g) : Move op s (s.written n g)
  | replaced {process : String} {document : Value} {g : Graph}
      (hop : op = .replaceWorkflow process document)
      (hp : s.processes.contains process = true) (hg : Document.loadGraph document = .ok g) :
      Move op s ((s.laidOut process g).withoutPreview process)
  | saved {process : String} {n : Nat} (hop : op = .save process)
      (ho : s.opened.get? process = some n) : Move op s (s.archived process (s.sheet n))
  | started {process : String} {n : Nat} {seed : List (String × Value)}
      (hop : op = .start process seed) (hp : s.processes.contains process = true)
      (ho : s.opened.get? process = some n) :
      Move op s (s.previewing process ⟨n, s.options, (Simulation.start (s.sheet n) seed).1⟩)
  | stepped {process : String} {preview : Preview} {session : Session} {notices : List Notice}
      (hop : op = .step process) (hv : s.previews.get? process = some preview)
      (hs : Simulation.step preview.options (s.sheet preview.sheet) preview.session =
        .ok (session, notices)) :
      Move op s (s.previewing process { preview with session })
  | stopped {process : String} (hop : op = .stop process) : Move op s (s.withoutPreview process)
  | adjusted {limit : Option Int} {options : Options} (hop : op = .setHistoryLimit limit)
      (ho : Options.ofLimit? limit = some options) : Move op s (s.adjusted options)

/-- The process is listed, and its sheet is the one with the number. -/
structure Opened (s : Studio) (process : String) (n : Nat) : Prop where
  listed : s.processes.contains process = true
  opened_eq : s.opened.get? process = some n

section

variable {op : Operation} {s : Studio} {process : String}

theorem opened_laidOut (hp : s.processes.contains process = true) (g : Graph) :
    (s.laidOut process g).Opened process s.sheets.length where
  listed := hp
  opened_eq := by rw [laidOut, Table.get?_set, if_pos rfl]

theorem reaches_requireProcess (s : Studio) (process : String) :
    Reaches (Move op) s (requireProcess process) fun _ t =>
      s = t ∧ s.processes.contains process = true := by
  unfold requireProcess
  refine reaches_get_bind ?_
  cases hp : s.processes.contains process with
  | true => exact reaches_pure ⟨rfl, rfl⟩
  | false => exact reaches_throw _

theorem reaches_nextNumber : Reaches (Move op) s nextNumber fun _ _ => True where
  path := .single .numbered
  answer _ _ := trivial

theorem reaches_identifier (given : Option String) (fresh : Nat → String) :
    Reaches (Move op) s (identifier given fresh) fun _ _ => True := by
  unfold identifier
  cases given.filter (· ≠ "") with
  | some id => exact reaches_pure trivial
  | none => exact reaches_nextNumber.wrapped fresh

theorem reaches_addProduct (hop : op.process? = none) (name unit : String) (id : Option String)
    (isInput isOutput : Bool) :
    Reaches (Move op) s (addProduct name unit id isInput isOutput) fun _ _ => True := by
  unfold addProduct
  refine (reaches_identifier id recordId).bind fun key t _ => ?_
  refine reaches_get_bind (reaches_attempt_bind fun products ha => ?_)
  exact reaches_modify_bind (.product hop ha) (reaches_pure trivial)

theorem reaches_addTask (hop : op.process? = none) (name : String) (id : Option String)
    (description : String) (rate : Amount) :
    Reaches (Move op) s (addTask name id description rate) fun _ _ => True := by
  unfold addTask
  cases rate.isNegative with
  | true => exact reaches_throw _
  | false =>
    refine (reaches_identifier id recordId).bind fun key t _ => ?_
    refine reaches_get_bind (reaches_attempt_bind fun tasks ha => ?_)
    exact reaches_modify_bind (.task hop ha) (reaches_pure trivial)

theorem reaches_addProcess (hop : op.process? = none) (name description : String)
    (id : Option String) :
    Reaches (Move op) s (addProcess name description id) fun _ _ => True := by
  unfold addProcess
  refine (reaches_identifier id recordId).bind fun key t _ => ?_
  refine reaches_get_bind (reaches_attempt_bind fun processes ha => ?_)
  exact reaches_modify_bind (.process hop ha) (reaches_pure trivial)

theorem reaches_sheetOf (hop : op.process? = some process) :
    Reaches (Move op) s (sheetOf process) fun n t => t.Opened process n := by
  unfold sheetOf
  refine (reaches_requireProcess s process).bind ?_
  rintro - t ⟨rfl, hp⟩
  refine reaches_get_bind ?_
  cases ho : s.opened.get? process with
  | some n => exact reaches_pure ⟨hp, ho⟩
  | none =>
    refine reaches_attempt_bind fun g hg => ?_
    exact reaches_modify_bind (.loaded hop hp ho hg) (reaches_pure (opened_laidOut hp g))

theorem reaches_graph (hop : op.process? = some process) :
    Reaches (Move op) s (graph process) fun g t => ∃ n, t.Opened process n ∧ g = t.sheet n := by
  unfold graph
  refine (reaches_sheetOf hop).bind fun n t ho => ?_
  exact reaches_get_bind (reaches_pure ⟨n, ho, rfl⟩)

theorem reaches_document (hop : op.process? = some process) :
    Reaches (Move op) s (document process) fun _ _ => True :=
  (reaches_graph hop).wrapped _

theorem reaches_edit {α : Type} {change : Graph → Except Graph.Fault (Graph × α)}
    (hop : op.process? = some process)
    (he : ∀ g h x, change g = .ok (h, x) → ∃ e, op.Edits e ∧ g.edit e = .ok h) :
    Reaches (Move op) s (edit process change) fun _ _ => True := by
  unfold edit
  refine (reaches_sheetOf hop).bind fun n t ho => ?_
  refine reaches_get_bind (reaches_attempt_bind fun r hr => ?_)
  obtain ⟨e, hedits, hg⟩ := he (t.sheet n) r.1 r.2 hr
  exact reaches_modify_bind (.edited hop ho.opened_eq hedits hg) (reaches_pure trivial)

theorem reaches_addNode (process : String) (kind : Kind) (payload : Option Payload)
    (given : Option String) (position : Position) :
    Reaches (Move (.addNode process kind payload given position)) s
      (addNode process kind payload given position) fun _ _ => True := by
  unfold addNode
  refine (reaches_identifier given (nodeId kind)).bind fun id t _ => ?_
  refine reaches_attempt_bind fun node hn => ?_
  refine reaches_edit rfl fun g h x hx => ⟨.addNode node, .addNode hn process given, ?_⟩
  obtain ⟨h', ha, he⟩ := bind_eq_ok.mp hx
  cases he
  exact ha

theorem reaches_connect (process source target : String) (handle : Option String) :
    Reaches (Move (.connect process source target handle)) s
      (connect process source target handle) fun _ _ => True :=
  reaches_edit rfl fun _ _ _ hx =>
    ⟨.connect source target handle, .connect process .., map_eq_ok.mpr ⟨_, hx, rfl⟩⟩

theorem reaches_updatePayload (process id : String) (payload : Payload) :
    Reaches (Move (.updatePayload process id payload)) s (updatePayload process id payload)
      fun _ _ => True :=
  reaches_edit rfl fun _ _ _ hx =>
    ⟨.updatePayload id payload, .updatePayload process .., map_eq_ok.mpr ⟨_, hx, rfl⟩⟩

theorem reaches_removeNode (process id : String) :
    Reaches (Move (.removeNode process id)) s (removeNode process id) fun _ _ => True :=
  reaches_edit rfl fun _ _ _ hx =>
    ⟨.removeNode id, .removeNode process id, congrArg Except.ok (Prod.mk.inj (Except.ok.inj hx)).1⟩

theorem reaches_replaceWorkflow (process : String) (document : Value) :
    Reaches (Move (.replaceWorkflow process document)) s (replaceWorkflow process document)
      fun g t => s.processes.contains process = true ∧
        t = (s.laidOut process g).withoutPreview process := by
  unfold replaceWorkflow install
  refine (reaches_requireProcess s process).bind ?_
  rintro - t ⟨rfl, hp⟩
  refine reaches_attempt_bind fun g hg => ?_
  exact reaches_modify_bind (.replaced rfl hp hg) (reaches_pure ⟨hp, rfl⟩)

theorem reaches_save (process : String) :
    Reaches (Move (.save process)) s (save process) fun document t =>
      t.archive.documents.get? process = some document ∧
        ∃ n, t.Opened process n ∧ document = Document.dumpGraph (t.sheet n) := by
  unfold save
  refine (reaches_graph rfl).bind ?_
  rintro - t ⟨n, ho, rfl⟩
  refine reaches_modify_bind (.saved rfl ho.opened_eq) (reaches_pure ⟨?_, n, { ho with }, rfl⟩)
  rw [archived, Archive.save, Table.get?_set, if_pos rfl]

theorem reaches_start (process : String) (seed : List (String × Value)) :
    Reaches (Move (.start process seed)) s (start process seed) fun _ _ => True := by
  unfold start
  refine (reaches_sheetOf rfl).bind fun n t ho => ?_
  refine reaches_get_bind ?_
  exact reaches_modify_bind (.started rfl ho.listed ho.opened_eq) (reaches_pure trivial)

theorem reaches_step (process : String) :
    Reaches (Move (.step process)) s (step process) fun _ _ => True := by
  unfold step
  refine reaches_get_bind ?_
  cases hv : s.previews.get? process with
  | none => exact reaches_pure trivial
  | some preview =>
    refine reaches_attempt_bind fun r hr => ?_
    exact reaches_modify_bind (.stepped rfl hv hr) (reaches_pure trivial)

theorem reaches_stop (process : String) :
    Reaches (Move (.stop process)) s (stop process) fun _ _ => True :=
  reaches_modify_bind (.stopped rfl) (reaches_pure trivial)

theorem reaches_setHistoryLimit (limit : Option Int) :
    Reaches (Move (.setHistoryLimit limit)) s (setHistoryLimit limit)
      fun options t => t = s.adjusted options := by
  unfold setHistoryLimit
  cases ho : Options.ofLimit? limit with
  | none => exact reaches_throw _
  | some options => exact reaches_modify_bind (.adjusted rfl ho) (reaches_pure rfl)

theorem reaches_perform (op : Operation) (s : Studio) :
    Reaches (Move op) s (perform op) fun _ _ => True := by
  cases op with
  | addProduct => exact (reaches_addProduct rfl ..).wrapped _
  | addTask => exact (reaches_addTask rfl ..).wrapped _
  | addProcess => exact (reaches_addProcess rfl ..).wrapped _
  | graph => exact (reaches_graph rfl).wrapped _
  | document => exact (reaches_document rfl).wrapped _
  | session => exact reaches_get_bind (reaches_pure trivial)
  | addNode => exact (reaches_addNode ..).wrapped _
  | connect => exact (reaches_connect ..).wrapped _
  | updatePayload => exact (reaches_updatePayload ..).wrapped _
  | removeNode => exact (reaches_removeNode ..).wrapped _
  | replaceWorkflow => exact (reaches_replaceWorkflow ..).wrapped _
  | save => exact (reaches_save _).wrapped _
  | start => exact (reaches_start ..).wrapped _
  | step => exact (reaches_step _).wrapped _
  | stop => exact (reaches_stop _).wrapped _
  | setHistoryLimit => exact (reaches_setHistoryLimit _).wrapped _

end

theorem after_keeps {P : Studio → Prop} {op : Operation} {s : Studio}
    (hmove : ∀ s t, Move op s t → P s → P t) (hs : P s) : P (s.after op) :=
  (reaches_perform op s).keeps hmove hs

/-- The states of a studio that was opened over some catalogs and some archive. -/
inductive Reachable : Studio → Prop
  | reopened (s : Studio) : Reachable s.reopened
  | performed {s : Studio} (hs : Reachable s) (op : Operation) : Reachable (s.after op)

theorem Reachable.invariant {P : Studio → Prop} {s : Studio} (hstart : ∀ s : Studio, P s.reopened)
    (hmove : ∀ op s t, Move op s t → P s → P t) (hs : s.Reachable) : P s := by
  induction hs with
  | reopened s => exact hstart s
  | performed _ op ih => exact after_keeps (hmove op) ih

theorem Reachable.afterAll {s : Studio} (hs : s.Reachable) (ops : List Operation) :
    (s.afterAll ops).Reachable := by
  induction ops generalizing s with
  | nil => exact hs
  | cons op ops ih => exact ih (hs.performed op)

end Flowsheet.Studio
