import Flowsheet.Proofs.Studio.Separation
import Flowsheet.Studio.Demo

/-! Moves that rewrite none but some of the processes. A graph that lies open stays as it is while
others are rewritten. -/

namespace Flowsheet.Studio

open Relation (ReflTransGen)

variable {α β : Type} {op : Operation} {allowed : String → Prop} {s t : Studio} {p : String}
  {g : Graph}

/-- The operation is an edit of the process, or puts a document in its place. -/
def Operation.Rewrites (op : Operation) (q : String) : Prop :=
  match op with
  | .addNode p .. | .connect p .. | .updatePayload p .. | .removeNode p _
  | .replaceWorkflow p _ => p = q
  | _ => False

theorem Operation.Edits.rewrites {e : Graph.Edit} (he : op.Edits e) (hop : op.process? = some p) :
    op.Rewrites p := by
  cases he <;> exact Option.some.inj hop

/-- A move of an operation that rewrites none but the allowed processes. -/
def Turn (allowed : String → Prop) (s t : Studio) : Prop :=
  ∃ op : Operation, (∀ q, op.Rewrites q → allowed q) ∧ Move op s t

theorem Laid.turn (hs : s.Laid) (ht : Turn allowed s t) : t.Laid := by
  obtain ⟨op, -, hm⟩ := ht
  exact hs.move hm

/-- The graph of the process lies open. -/
structure LiesOpen (s : Studio) (p : String) (g : Graph) : Prop where
  laid : s.Laid
  listed : s.processes.contains p = true
  graph_eq : (s.view p).graph = some g

namespace LiesOpen

theorem exists_sheet (h : s.LiesOpen p g) : ∃ n, s.opened.get? p = some n ∧ s.sheet n = g :=
  Option.map_eq_some_iff.mp h.graph_eq

theorem outcome_graph (h : s.LiesOpen p g) : outcome (graph p) s = (.ok g, s) := by
  obtain ⟨n, ho, rfl⟩ := h.exists_sheet
  exact outcome_graph_of_opened ⟨h.listed, ho⟩

theorem graph_move (h : s.LiesOpen p g) (hop : ¬ op.Rewrites p) (hm : Move op s t) :
    (t.view p).graph = some g := by
  have hs := h.laid
  cases hm with
  | @loaded q k _ _ ho =>
    have hne : p ≠ q := by
      rintro rfl
      obtain ⟨n, hn, -⟩ := h.exists_sheet
      exact nomatch ho.symm.trans hn
    rw [view_laidOut hs, if_neg hne]
    exact h.graph_eq
  | @edited q n e k hq ho he =>
    have hne : p ≠ q := by
      rintro rfl
      exact hop (he.rewrites hq)
    rw [view_written hs ho, if_neg hne]
    exact h.graph_eq
  | @replaced q document k hr =>
    have hne : p ≠ q := by
      rintro rfl
      exact hop (hr ▸ rfl)
    rw [view_withoutPreview, if_neg hne, view_laidOut hs, if_neg hne]
    exact h.graph_eq
  | _ => exact h.graph_eq

theorem turn (h : s.LiesOpen p g) (hp : ¬ allowed p) (ht : Turn allowed s t) : t.LiesOpen p g := by
  obtain ⟨op, hop, hm⟩ := ht
  constructor
  · exact h.laid.move hm
  · exact listed_move hm h.listed
  · exact h.graph_move (fun hr => hp (hop p hr)) hm

end LiesOpen

section

variable {a : Action α} {Q : α → Studio → Prop} {R : Studio → Studio → Prop}

theorem Reaches.turn (ha : Reaches (Move op) s a Q) (hop : ∀ q, op.Rewrites q → allowed q) :
    Reaches (Turn allowed) s a Q where
  path := ha.path.lift id fun _ _ hm => ⟨op, hop, hm⟩
  answer := ha.answer

theorem Reaches.quiet (ha : Reaches (Move op) s a Q) (hop : ∀ q, ¬ op.Rewrites q) :
    Reaches (Turn allowed) s a Q :=
  ha.turn fun q hr => absurd hr (hop q)

theorem Reaches.done (ha : Reaches R s a Q) : Reaches R s a fun _ _ => True :=
  ⟨ha.path, fun _ _ => trivial⟩

theorem outcome_tryCatch (a : Action α) (handler : Fault → Action α) (s : Studio) :
    outcome (tryCatch a handler) s = match outcome a s with
      | (.ok x, t) => (.ok x, t)
      | (.error fault, t) => outcome (handler fault) t := by
  have hrun : outcome (tryCatch a handler) s =
      StateT.run (ExceptT.run (ExceptT.tryCatch a handler)) s := rfl
  have hbind (f : Except Fault α → StateM Studio (Except Fault α)) :
      StateT.run (a.run >>= f) s = f (outcome a s).1 (outcome a s).2 := rfl
  rw [hrun, ExceptT.tryCatch, ExceptT.run_mk]
  refine (hbind _).trans ?_
  cases outcome a s with
  | mk r t => cases r <;> rfl

theorem Reaches.caught {handler : Fault → Action α} (ha : Reaches R s a fun _ _ => True)
    (hh : ∀ fault t, Reaches R t (handler fault) fun _ _ => True) :
    Reaches R s (tryCatch a handler) fun _ _ => True := by
  refine ⟨?_, fun _ _ => trivial⟩
  have hpath := ha.path
  rw [outcome_tryCatch]
  cases ho : outcome a s with
  | mk r t =>
    rw [ho] at hpath
    cases r with
    | ok x => exact hpath
    | error fault => exact hpath.trans (hh fault t).path

theorem reaches_forIn {xs : List β} {f : β → PUnit → Action (ForInStep PUnit)}
    (hf : ∀ x u t, Reaches R t (f x u) fun _ _ => True) (s : Studio) (u : PUnit) :
    Reaches R s (forIn xs u f) fun _ _ => True := by
  induction xs generalizing s u with
  | nil => exact reaches_pure trivial
  | cons x xs ih =>
    rw [List.forIn_cons]
    refine (hf x u s).bind fun step t _ => ?_
    cases step with
    | done => exact reaches_pure trivial
    | yield u => exact ih t u

theorem turns_addProduct (name unit : String) (given : Option String) (isInput isOutput : Bool) :
    Reaches (Turn allowed) s (addProduct name unit given isInput isOutput) fun _ _ => True := by
  have ha : Reaches (Move (.addProduct name unit given isInput isOutput)) s _ _ :=
    reaches_addProduct rfl name unit given isInput isOutput
  exact ha.quiet fun _ => id

theorem turns_addProcess (name description : String) (given : Option String) :
    Reaches (Turn allowed) s (addProcess name description given) fun _ _ => True := by
  have ha : Reaches (Move (.addProcess name description given)) s _ _ :=
    reaches_addProcess rfl name description given
  exact ha.quiet fun _ => id

theorem turns_graph (p : String) : Reaches (Turn allowed) s (graph p) fun _ _ => True := by
  have ha : Reaches (Move (.graph p)) s _ _ := reaches_graph rfl
  exact (ha.quiet fun _ => id).done

theorem turns_document (p : String) : Reaches (Turn allowed) s (document p) fun _ _ => True :=
  (turns_graph p).wrapped _

theorem turns_save (p : String) : Reaches (Turn allowed) s (save p) fun _ _ => True :=
  ((reaches_save p).quiet fun _ => id).done

theorem turns_start (p : String) (seed : List (String × Value)) :
    Reaches (Turn allowed) s (start p seed) fun _ _ => True :=
  (reaches_start p seed).quiet fun _ => id

theorem turns_step (p : String) : Reaches (Turn allowed) s (step p) fun _ _ => True :=
  (reaches_step p).quiet fun _ => id

theorem turns_stop (p : String) : Reaches (Turn allowed) s (stop p) fun _ _ => True :=
  (reaches_stop p).quiet fun _ => id

theorem turns_setHistoryLimit (limit : Option Int) :
    Reaches (Turn allowed) s (setHistoryLimit limit) fun _ _ => True :=
  ((reaches_setHistoryLimit limit).quiet fun _ => id).done

theorem turns_draw (hp : allowed p) (outline : Outline) :
    Reaches (Turn allowed) s (draw p outline) fun _ _ => True := by
  unfold draw
  refine (reaches_forIn (fun n _ t => ?_) s _).bind fun _ t _ => ?_
  · have hnode := reaches_addNode p n.kind (some n.payload) (some n.id) n.position (s := t)
    exact (hnode.turn fun _ hr => hr ▸ hp).bind fun _ _ _ => reaches_pure trivial
  · refine (reaches_forIn (fun e _ u => ?_) t _).bind fun _ _ _ => reaches_pure trivial
    have hedge := reaches_connect p e.source e.target e.handle (s := u)
    exact (hedge.turn fun _ hr => hr ▸ hp).bind fun _ _ _ => reaches_pure trivial

theorem turns_ensureDemo (hp : allowed demoProcess) (s : Studio) :
    Reaches (Turn allowed) s ensureDemo fun _ _ => True := by
  unfold ensureDemo
  refine reaches_get_bind ?_
  cases s.processes.contains demoProcess with
  | true => exact reaches_pure trivial
  | false =>
    refine (reaches_forIn (fun product _ t => ?_) s _).bind fun _ t _ => ?_
    · obtain ⟨id, name, unit⟩ := product
      refine reaches_get_bind ?_
      cases t.products.contains id with
      | true => exact reaches_pure trivial
      | false =>
        exact (turns_addProduct ..).bind fun _ _ _ => reaches_pure trivial
    · refine (turns_addProcess ..).bind fun _ _ _ => ?_
      refine (turns_draw hp _).bind fun _ _ _ => ?_
      exact (turns_save _).bind fun _ _ _ => reaches_pure trivial

end

end Flowsheet.Studio
