import Flowsheet.Proofs.Studio.Separation

/-! The logic of two runs. Studios that show the same for one process, perhaps on sheets of different
numbers or with its graph open in one of them only, answer the same to what is asked of it, and show
the same for it afterwards. -/

namespace Flowsheet.Studio

open Simulation (Options Session)

variable {α β γ δ ε : Type} {op : Operation} {s t : Studio} {q : String} {n m : Nat}

/-- With the number that identifiers are made up from. -/
def numbered (s : Studio) (number : Nat) : Studio := { s with identifiers := number }

/-- The sheets of the process in two studios, whose numbers may differ. -/
structure OnSheets (q : String) (n m : Nat) (s t : Studio) : Prop where
  left : s.opened.get? q = some n
  right : t.opened.get? q = some m

structure Alike (q : String) (s t : Studio) : Prop where
  laid_left : s.Laid
  laid_right : t.Laid
  view_eq : (s.view q).shown = (t.view q).shown

namespace Alike

theorem symm (h : Alike q s t) : Alike q t s :=
  ⟨h.laid_right, h.laid_left, h.view_eq.symm⟩

theorem processes_eq (h : Alike q s t) : s.processes = t.processes :=
  congrArg View.processes h.view_eq

theorem options_eq (h : Alike q s t) : s.options = t.options :=
  congrArg View.options h.view_eq

theorem trans {u : Studio} (h : Alike q s t) (k : Alike q t u) : Alike q s u :=
  ⟨h.laid_left, k.laid_right, h.view_eq.trans k.view_eq⟩

theorem loadGraph_eq (h : Alike q s t) : s.archive.loadGraph q = t.archive.loadGraph q := by
  have hstored : s.archive.documents.get? q = t.archive.documents.get? q :=
    congrArg View.stored h.view_eq
  rw [Archive.loadGraph, Archive.loadGraph, Archive.load, Archive.load, hstored]

theorem graph_eq (h : Alike q s t) :
    ((s.opened.get? q).map s.sheet).or (s.archive.loadGraph q).toOption =
      ((t.opened.get? q).map t.sheet).or (t.archive.loadGraph q).toOption :=
  congrArg View.graph h.view_eq

theorem preview_eq (h : Alike q s t) :
    (s.previews.get? q).map Preview.session = (t.previews.get? q).map Preview.session :=
  congrArg View.session h.view_eq

theorem session_eq (h : Alike q s t) : s.session q = t.session q := by
  rw [session, session, h.preview_eq]

/-- What would be loaded in one of the studios is what lies open in the other. -/
theorem loads (h : Alike q s t) (hs : s.opened.get? q = some n) (ht : t.opened.get? q = none) :
    t.archive.loadGraph q = .ok (s.sheet n) := by
  have hgraph := h.graph_eq
  rw [hs, ht] at hgraph
  cases hg : t.archive.loadGraph q with
  | ok g =>
    rw [hg] at hgraph
    exact congrArg Except.ok (Option.some.inj hgraph).symm
  | error fault =>
    rw [hg] at hgraph
    cases hgraph

theorem sheet_eq (h : Alike q s t) (ho : OnSheets q n m s t) : s.sheet n = t.sheet m := by
  have hgraph := h.graph_eq
  rw [ho.left, ho.right] at hgraph
  exact Option.some.inj hgraph

theorem view_eq_of_opened (h : Alike q s t) (ho : OnSheets q n m s t) : s.view q = t.view q := by
  rw [← shown_view_of_opened ho.left, ← shown_view_of_opened ho.right, h.view_eq]

theorem numbered (h : Alike q s t) (number : Nat) :
    Alike q (s.numbered number) (t.numbered number) :=
  ⟨{ h.laid_left with }, { h.laid_right with }, h.view_eq⟩

theorem laidOut (h : Alike q s t) (g : Graph) : Alike q (s.laidOut q g) (t.laidOut q g) where
  laid_left := h.laid_left.laidOut q g
  laid_right := h.laid_right.laidOut q g
  view_eq := by
    rw [view_laidOut h.laid_left, view_laidOut h.laid_right, if_pos rfl, if_pos rfl]
    exact congrArg (fun v : View => { v with graph := some g }) h.view_eq

theorem written (h : Alike q s t) (ho : OnSheets q n m s t) (g : Graph) :
    Alike q (s.written n g) (t.written m g) where
  laid_left := h.laid_left.written n g
  laid_right := h.laid_right.written m g
  view_eq := by
    rw [view_written h.laid_left ho.left, view_written h.laid_right ho.right,
      h.view_eq_of_opened ho]

/-- A graph that does not lie open would now be loaded from another document. -/
theorem archived (h : Alike q s t) (ho : OnSheets q n m s t) (p : String) (g : Graph) :
    Alike q (s.archived p g) (t.archived p g) where
  laid_left := { h.laid_left with }
  laid_right := { h.laid_right with }
  view_eq := by rw [view_archived, view_archived, h.view_eq_of_opened ho]

theorem previewing (h : Alike q s t) {left right : Preview} (he : left.session = right.session) :
    Alike q (s.previewing q left) (t.previewing q right) where
  laid_left := { h.laid_left with }
  laid_right := { h.laid_right with }
  view_eq := by
    rw [view_previewing, view_previewing, if_pos rfl, if_pos rfl, he]
    exact congrArg (fun v : View => { v with session := some right.session }) h.view_eq

theorem withoutPreview (h : Alike q s t) : Alike q (s.withoutPreview q) (t.withoutPreview q) where
  laid_left := { h.laid_left with }
  laid_right := { h.laid_right with }
  view_eq := by
    rw [view_withoutPreview, view_withoutPreview, if_pos rfl, if_pos rfl]
    exact congrArg (fun v : View => { v with session := none }) h.view_eq

theorem adjusted (h : Alike q s t) (options : Options) :
    Alike q (s.adjusted options) (t.adjusted options) where
  laid_left := { h.laid_left with }
  laid_right := { h.laid_right with }
  view_eq := by
    rw [view_adjusted, view_adjusted]
    exact congrArg (fun v : View => { v with options }) h.view_eq

end Alike

/-- Both runs fail with the same fault, or both give an answer. -/
inductive Agrees (q : String) (Q : α → β → Studio → Studio → Prop) :
    Except Fault α × Studio → Except Fault β × Studio → Prop
  | ok {x : α} {y : β} {s t : Studio} (h : Alike q s t) (hq : Q x y s t) :
      Agrees q Q (.ok x, s) (.ok y, t)
  | error {fault : Fault} {s t : Studio} (h : Alike q s t) :
      Agrees q Q (.error fault, s) (.error fault, t)

def Same (x y : α) (_ _ : Studio) : Prop := x = y

section

variable {Q : α → β → Studio → Studio → Prop} {P : γ → δ → Studio → Studio → Prop}
  {a : Action α} {b : Action β} {f : α → Action γ} {k : β → Action δ}

theorem Agrees.bind (ha : Agrees q Q (outcome a s) (outcome b t))
    (hf : ∀ x y s t, Alike q s t → Q x y s t → Agrees q P (outcome (f x) s) (outcome (k y) t)) :
    Agrees q P (outcome (a >>= f) s) (outcome (b >>= k) t) := by
  generalize hl : outcome a s = left at ha
  generalize hr : outcome b t = right at ha
  cases ha with
  | ok h hq =>
    rw [outcome_bind_of_ok hl, outcome_bind_of_ok hr]
    exact hf _ _ _ _ h hq
  | error h =>
    rw [outcome_bind_of_error hl, outcome_bind_of_error hr]
    exact .error h

theorem agrees_pure {x : α} {y : β} (h : Alike q s t) (hq : Q x y s t) :
    Agrees q Q (outcome (pure x) s) (outcome (pure y) t) :=
  .ok h hq

theorem agrees_throw (h : Alike q s t) (fault : Fault) :
    Agrees q Q (outcome (throw fault) s) (outcome (throw fault) t) :=
  .error h

theorem agrees_get_bind {f : Studio → Action γ} {k : Studio → Action δ}
    (hf : Agrees q P (outcome (f s) s) (outcome (k t) t)) :
    Agrees q P (outcome (get >>= f) s) (outcome (get >>= k) t) :=
  hf

theorem agrees_modify_bind {f : Unit → Action γ} {k : Unit → Action δ}
    {left right : Studio → Studio}
    (hf : Agrees q P (outcome (f ()) (left s)) (outcome (k ()) (right t))) :
    Agrees q P (outcome (modify left >>= f) s) (outcome (modify right >>= k) t) :=
  hf

theorem agrees_attempt_bind {wrap : ε → Fault} {left right : Except ε α} {f : α → Action γ}
    {k : α → Action δ} (h : Alike q s t) (hr : left = right)
    (hf : ∀ x, Agrees q P (outcome (f x) s) (outcome (k x) t)) :
    Agrees q P (outcome (attempt wrap left >>= f) s) (outcome (attempt wrap right >>= k) t) := by
  rw [hr]
  cases right with
  | ok x => exact hf x
  | error fault => exact .error h

theorem Agrees.wrapped {a b : Action α} (ha : Agrees q Same (outcome a s) (outcome b t))
    (wrap : α → γ) :
    Agrees q Same (outcome (do return wrap (← a)) s) (outcome (do return wrap (← b)) t) :=
  ha.bind fun _ _ _ _ h he => agrees_pure h (congrArg wrap he)

theorem Agrees.mono {R : α → β → Studio → Studio → Prop} {u : Except Fault α × Studio}
    {v : Except Fault β × Studio} (ha : Agrees q Q u v)
    (hq : ∀ x y s t, Q x y s t → R x y s t) : Agrees q R u v := by
  cases ha with
  | ok h hx => exact .ok h (hq _ _ _ _ hx)
  | error h => exact .error h

theorem Agrees.alike {u : Except Fault α × Studio} {v : Except Fault β × Studio}
    (ha : Agrees q Q u v) : Alike q u.2 v.2 := by
  cases ha with
  | ok h | error h => exact h

theorem Agrees.answer_eq {u v : Except Fault α × Studio} (ha : Agrees q Same u v) : u.1 = v.1 := by
  cases ha with
  | ok h he => exact congrArg Except.ok he
  | error h => rfl

end

theorem agrees_identifier (h : Alike q s t) (hn : s.identifiers = t.identifiers)
    (given : Option String) (fresh : Nat → String) :
    Agrees q Same (outcome (identifier given fresh) s) (outcome (identifier given fresh) t) := by
  unfold identifier
  cases given.filter (· ≠ "") with
  | some id => exact agrees_pure h rfl
  | none =>
    have hnext : Agrees q Same (outcome nextNumber s) (outcome nextNumber t) := by
      refine .ok ?_ (congrArg (· + 1) hn)
      rw [hn]
      exact h.numbered _
    exact hnext.wrapped fresh

theorem agrees_addProduct (h : Alike q s t) (hn : s.identifiers = t.identifiers)
    (name unit : String) (id : Option String) (isInput isOutput : Bool) :
    Agrees q Same (outcome (addProduct name unit id isInput isOutput) s)
      (outcome (addProduct name unit id isInput isOutput) t) := by
  unfold addProduct
  refine (agrees_identifier h hn id recordId).bind ?_
  rintro key - s t h rfl
  have hproducts : s.products = t.products := congrArg View.products h.view_eq
  refine agrees_get_bind (agrees_attempt_bind h (by rw [hproducts]) fun products => ?_)
  exact agrees_modify_bind (agrees_pure ⟨{ h.laid_left with }, { h.laid_right with },
    congrArg (fun v : View => { v with products }) h.view_eq⟩ rfl)

theorem agrees_addTask (h : Alike q s t) (hn : s.identifiers = t.identifiers) (name : String)
    (id : Option String) (description : String) (rate : Amount) :
    Agrees q Same (outcome (addTask name id description rate) s)
      (outcome (addTask name id description rate) t) := by
  unfold addTask
  cases rate.isNegative with
  | true => exact agrees_throw h _
  | false =>
    refine (agrees_identifier h hn id recordId).bind ?_
    rintro key - s t h rfl
    have htasks : s.tasks = t.tasks := congrArg View.tasks h.view_eq
    refine agrees_get_bind (agrees_attempt_bind h (by rw [htasks]) fun tasks => ?_)
    exact agrees_modify_bind (agrees_pure ⟨{ h.laid_left with }, { h.laid_right with },
      congrArg (fun v : View => { v with tasks }) h.view_eq⟩ rfl)

theorem agrees_addProcess (h : Alike q s t) (hn : s.identifiers = t.identifiers)
    (name description : String) (id : Option String) :
    Agrees q Same (outcome (addProcess name description id) s)
      (outcome (addProcess name description id) t) := by
  unfold addProcess
  refine (agrees_identifier h hn id recordId).bind ?_
  rintro key - s t h rfl
  refine agrees_get_bind (agrees_attempt_bind h (by rw [h.processes_eq]) fun processes => ?_)
  exact agrees_modify_bind (agrees_pure ⟨{ h.laid_left with }, { h.laid_right with },
    congrArg (fun v : View => { v with processes }) h.view_eq⟩ rfl)

theorem agrees_requireProcess (h : Alike q s t) (p : String) :
    Agrees q Same (outcome (requireProcess p) s) (outcome (requireProcess p) t) := by
  unfold requireProcess
  refine agrees_get_bind ?_
  rw [h.processes_eq]
  cases t.processes.contains p with
  | true => exact agrees_pure h rfl
  | false => exact agrees_throw h _

/-- What is loaded is not seen by anyone who could have loaded it. -/
theorem alike_laidOut (hs : s.Laid) {p : String} {g : Graph} (ho : s.opened.get? p = none)
    (hg : s.archive.loadGraph p = .ok g) (q : String) : Alike q (s.laidOut p g) s where
  laid_left := hs.laidOut p g
  laid_right := hs
  view_eq := by
    rw [view_laidOut hs]
    split
    · next he =>
      subst he
      have hgraph : (s.view q).shown.graph = some g := by
        rw [graph_shown_view, ho, hg]
        rfl
      exact congrArg (fun graph => { s.view q with graph }) hgraph.symm
    · rfl

theorem agrees_sheetOf (h : Alike q s t) :
    Agrees q (OnSheets q) (outcome (sheetOf q) s) (outcome (sheetOf q) t) := by
  unfold sheetOf
  refine (agrees_requireProcess h q).bind ?_
  rintro - - s t h -
  refine agrees_get_bind ?_
  have hlaid : ∀ (s : Studio) (g : Graph), (s.laidOut q g).opened.get? q = some s.sheets.length :=
    fun s g => by rw [get?_opened_laidOut, if_pos rfl]
  cases hs : s.opened.get? q with
  | some n =>
    cases ht : t.opened.get? q with
    | some m => exact agrees_pure h ⟨hs, ht⟩
    | none =>
      have hg := h.loads hs ht
      rw [hg]
      exact .ok (h.trans (alike_laidOut h.laid_right ht hg q).symm) ⟨hs, hlaid t _⟩
  | none =>
    cases ht : t.opened.get? q with
    | some m =>
      have hg := h.symm.loads ht hs
      rw [hg]
      exact .ok ((alike_laidOut h.laid_left hs hg q).trans h) ⟨hlaid s _, ht⟩
    | none =>
      refine agrees_attempt_bind h h.loadGraph_eq fun g => ?_
      exact agrees_modify_bind (agrees_pure (h.laidOut g) ⟨hlaid s g, hlaid t g⟩)

theorem agrees_graph_opened (h : Alike q s t) :
    Agrees q (fun g k s t => g = k ∧ ∃ n m, OnSheets q n m s t) (outcome (graph q) s)
      (outcome (graph q) t) := by
  unfold graph
  refine (agrees_sheetOf h).bind ?_
  rintro n m s t h ho
  exact agrees_get_bind (agrees_pure h ⟨h.sheet_eq ho, n, m, ho⟩)

theorem agrees_graph (h : Alike q s t) :
    Agrees q Same (outcome (graph q) s) (outcome (graph q) t) :=
  (agrees_graph_opened h).mono fun _ _ _ _ hg => hg.1

theorem agrees_document (h : Alike q s t) :
    Agrees q Same (outcome (document q) s) (outcome (document q) t) :=
  (agrees_graph h).wrapped _

theorem agrees_edit (h : Alike q s t) (change : Graph → Except Graph.Fault (Graph × α)) :
    Agrees q Same (outcome (edit q change) s) (outcome (edit q change) t) := by
  unfold edit
  refine (agrees_sheetOf h).bind ?_
  rintro n m s t h ho
  refine agrees_get_bind (agrees_attempt_bind h (by rw [h.sheet_eq ho]) fun r => ?_)
  exact agrees_modify_bind (agrees_pure (h.written ho r.1) rfl)

theorem agrees_addNode (h : Alike q s t) (hn : s.identifiers = t.identifiers) (kind : Kind)
    (payload : Option Payload) (id : Option String) (position : Position) :
    Agrees q Same (outcome (addNode q kind payload id position) s)
      (outcome (addNode q kind payload id position) t) := by
  unfold addNode
  refine (agrees_identifier h hn id (nodeId kind)).bind ?_
  rintro key - s t h rfl
  exact agrees_attempt_bind h rfl fun node => agrees_edit h _

theorem agrees_replaceWorkflow (h : Alike q s t) (document : Value) :
    Agrees q Same (outcome (replaceWorkflow q document) s)
      (outcome (replaceWorkflow q document) t) := by
  unfold replaceWorkflow install
  refine (agrees_requireProcess h q).bind ?_
  rintro - - s t h -
  refine agrees_attempt_bind h rfl fun g => ?_
  exact agrees_modify_bind (agrees_pure (h.laidOut g).withoutPreview rfl)

theorem agrees_save (h : Alike q s t) :
    Agrees q Same (outcome (save q) s) (outcome (save q) t) := by
  unfold save
  refine (agrees_graph_opened h).bind ?_
  rintro g - s t h ⟨rfl, n, m, ho⟩
  exact agrees_modify_bind (agrees_pure (h.archived ho q g) rfl)

theorem agrees_start (h : Alike q s t) (seed : List (String × Value)) :
    Agrees q Same (outcome (start q seed) s) (outcome (start q seed) t) := by
  unfold start
  refine (agrees_sheetOf h).bind ?_
  rintro n m s t h ho
  have hsession : (Simulation.start (s.sheet n) seed).1 = (Simulation.start (t.sheet m) seed).1 := by
    rw [h.sheet_eq ho]
  refine agrees_get_bind ?_
  exact agrees_modify_bind (agrees_pure (h.previewing hsession) hsession)

theorem agrees_step (h : Alike q s t) (hs : s.Steady) (ht : t.Steady) :
    Agrees q Same (outcome (step q) s) (outcome (step q) t) := by
  have hsession := h.preview_eq
  unfold step
  refine agrees_get_bind ?_
  cases hv : s.previews.get? q with
  | none =>
    rw [hv, Option.map_none, eq_comm, Option.map_eq_none_iff] at hsession
    rw [hsession]
    exact agrees_pure h rfl
  | some left =>
    rw [hv, Option.map_some, eq_comm, Option.map_eq_some_iff] at hsession
    obtain ⟨right, hw, he⟩ := hsession
    have hl := hs.follows q left hv
    have hr := ht.follows q right hw
    rw [hw]
    refine agrees_attempt_bind h ?_ fun r => ?_
    · rw [h.sheet_eq ⟨hl.opened_eq, hr.opened_eq⟩, hl.options_eq, hr.options_eq, h.options_eq, he]
    · exact agrees_modify_bind (agrees_pure (h.previewing rfl) rfl)

theorem agrees_stop (h : Alike q s t) : Agrees q Same (outcome (stop q) s) (outcome (stop q) t) :=
  agrees_modify_bind (agrees_pure h.withoutPreview rfl)

theorem agrees_setHistoryLimit (h : Alike q s t) (limit : Option Int) :
    Agrees q Same (outcome (setHistoryLimit limit) s) (outcome (setHistoryLimit limit) t) := by
  unfold setHistoryLimit
  cases Options.ofLimit? limit with
  | none => exact agrees_throw h _
  | some options => exact agrees_modify_bind (agrees_pure (h.adjusted options) rfl)

/-- Also what is asked of no process is answered the same. -/
theorem agrees_perform (h : Alike q s t) (hs : s.Steady) (ht : t.Steady)
    (hn : s.identifiers = t.identifiers) (hop : ∀ p ∈ op.process?, p = q) :
    Agrees q Same (outcome (perform op) s) (outcome (perform op) t) := by
  cases op with
  | addProduct => exact (agrees_addProduct h hn ..).wrapped _
  | addTask => exact (agrees_addTask h hn ..).wrapped _
  | addProcess => exact (agrees_addProcess h hn ..).wrapped _
  | setHistoryLimit => exact (agrees_setHistoryLimit h _).wrapped _
  | graph p =>
    obtain rfl := hop p rfl
    exact (agrees_graph h).wrapped _
  | document p =>
    obtain rfl := hop p rfl
    exact (agrees_document h).wrapped _
  | session p =>
    obtain rfl := hop p rfl
    exact agrees_get_bind (agrees_pure h (congrArg Answer.session h.session_eq))
  | addNode p =>
    obtain rfl := hop p rfl
    exact (agrees_addNode h hn ..).wrapped _
  | connect p | updatePayload p =>
    obtain rfl := hop p rfl
    exact (agrees_edit h _).wrapped _
  | removeNode p =>
    obtain rfl := hop p rfl
    exact (agrees_edit h _).wrapped fun _ => Answer.done
  | replaceWorkflow p =>
    obtain rfl := hop p rfl
    exact (agrees_replaceWorkflow h _).wrapped _
  | save p =>
    obtain rfl := hop p rfl
    exact (agrees_save h).wrapped _
  | start p =>
    obtain rfl := hop p rfl
    exact (agrees_start h _).wrapped _
  | step p =>
    obtain rfl := hop p rfl
    exact (agrees_step h hs ht).wrapped _
  | stop p =>
    obtain rfl := hop p rfl
    exact (agrees_stop h).wrapped _

end Flowsheet.Studio
