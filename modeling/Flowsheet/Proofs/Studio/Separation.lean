import Flowsheet.Proofs.Studio.Preview

/-! What a studio has for one process. Each process has a sheet of its own, so that an operation on
another process changes nothing of it. -/

namespace Flowsheet.Studio

open Simulation (Options Session)

variable {op : Operation} {s t : Studio} {p q : String} {n : Nat}

/-- No two processes are edited on the same sheet. -/
structure Laid (s : Studio) : Prop where
  lt_length : ∀ p n, s.opened.get? p = some n → n < s.sheets.length
  injective : ∀ p q n, s.opened.get? p = some n → s.opened.get? q = some n → p = q

theorem laid_reopened (s : Studio) : s.reopened.Laid where
  lt_length _ _ ho := nomatch ho
  injective _ _ _ ho := nomatch ho

theorem get?_opened_laidOut (s : Studio) (p : String) (g : Graph) (q : String) :
    (s.laidOut p g).opened.get? q = if q = p then some s.sheets.length else s.opened.get? q :=
  Table.get?_set ..

namespace Laid

theorem laidOut (hs : s.Laid) (p : String) (g : Graph) : (s.laidOut p g).Laid := by
  have hlength : (s.laidOut p g).sheets.length = s.sheets.length + 1 := by simp [Studio.laidOut]
  constructor
  · intro q n ho
    rw [get?_opened_laidOut] at ho
    split at ho
    · cases ho
      omega
    · have hlt := hs.lt_length q n ho
      omega
  · intro q r n hq hr
    rw [get?_opened_laidOut] at hq hr
    by_cases hqp : q = p
    · by_cases hrp : r = p
      · rw [hqp, hrp]
      · rw [if_pos hqp] at hq
        rw [if_neg hrp] at hr
        cases hq
        have hlt := hs.lt_length r _ hr
        omega
    · rw [if_neg hqp] at hq
      by_cases hrp : r = p
      · rw [if_pos hrp] at hr
        cases hr
        have hlt := hs.lt_length q _ hq
        omega
      · rw [if_neg hrp] at hr
        exact hs.injective q r n hq hr

theorem written (hs : s.Laid) (n : Nat) (g : Graph) : (s.written n g).Laid where
  lt_length p m ho := by
    have hlength : (s.written n g).sheets.length = s.sheets.length := by simp [Studio.written]
    rw [hlength]
    exact hs.lt_length p m ho
  injective := hs.injective

theorem move (hs : s.Laid) (hm : Move op s t) : t.Laid := by
  cases hm with
  | loaded => exact hs.laidOut _ _
  | edited => exact hs.written _ _
  | @replaced p _ g => exact { hs.laidOut p g with }
  | _ => exact { hs with }

end Laid

theorem Laid.after (hs : s.Laid) (op : Operation) : (s.after op).Laid :=
  after_keeps (fun _ _ hm hk => hk.move hm) hs

theorem Reachable.laid (hs : s.Reachable) : s.Laid :=
  hs.invariant laid_reopened fun _ _ _ hm hk => hk.move hm

/-- What a studio has for one process, beside what it has for all of them. -/
structure View where
  products : Catalog Product
  tasks : Catalog ShopTask
  processes : Catalog Workflow
  options : Options
  stored : Option Value
  graph : Option Graph
  session : Option Session

def view (s : Studio) (q : String) : View where
  products := s.products
  tasks := s.tasks
  processes := s.processes
  options := s.options
  stored := s.archive.documents.get? q
  graph := (s.opened.get? q).map s.sheet
  session := (s.previews.get? q).map Preview.session

/-- With the graph that an operation would find: the one that lies open, or else the one that would
be loaded. -/
def View.shown (v : View) : View :=
  { v with graph := v.graph.or (Document.loadGraph (v.stored.getD Document.empty)).toOption }

theorem shown_view_of_opened (ho : s.opened.get? q = some n) : (s.view q).shown = s.view q := by
  simp [View.shown, view, ho]

theorem graph_shown_view (s : Studio) (q : String) : (s.view q).shown.graph =
    ((s.opened.get? q).map s.sheet).or (s.archive.loadGraph q).toOption := rfl

theorem view_laidOut (hs : s.Laid) (p : String) (g : Graph) (q : String) :
    (s.laidOut p g).view q = if q = p then { s.view q with graph := some g } else s.view q := by
  have hgraph : ((s.laidOut p g).opened.get? q).map (s.laidOut p g).sheet =
      if q = p then some g else (s.opened.get? q).map s.sheet := by
    rw [get?_opened_laidOut]
    split
    · simp [sheet_laidOut]
    · cases ho : s.opened.get? q with
      | none => rfl
      | some n =>
        have hlt := hs.lt_length q n ho
        have hne : n ≠ s.sheets.length := by omega
        simp [sheet_laidOut, hne]
  unfold view
  rw [hgraph]
  split <;> rfl

theorem view_written (hs : s.Laid) (ho : s.opened.get? p = some n) (g : Graph) (q : String) :
    (s.written n g).view q = if q = p then { s.view q with graph := some g } else s.view q := by
  have hgraph : (s.opened.get? q).map (s.written n g).sheet =
      if q = p then some g else (s.opened.get? q).map s.sheet := by
    split
    · next he =>
      have hlt := hs.lt_length p n ho
      rw [he, ho, Option.map_some, sheet_written, if_pos ⟨rfl, hlt⟩]
    · next hne =>
      cases hq : s.opened.get? q with
      | none => rfl
      | some m =>
        have hm : n ≠ m := by
          rintro rfl
          exact hne (hs.injective q p n hq ho)
        simp [sheet_written, hm]
  have hview : (s.written n g).view q =
      { s.view q with graph := (s.opened.get? q).map (s.written n g).sheet } := rfl
  rw [hview, hgraph]
  split <;> rfl

theorem view_archived (s : Studio) (p : String) (g : Graph) (q : String) :
    (s.archived p g).view q =
      if q = p then { s.view q with stored := some (Document.dumpGraph g) } else s.view q := by
  have hstored : (s.archived p g).archive.documents.get? q =
      if q = p then some (Document.dumpGraph g) else s.archive.documents.get? q :=
    Table.get?_set ..
  unfold view
  rw [hstored]
  split <;> rfl

theorem view_previewing (s : Studio) (p : String) (preview : Preview) (q : String) :
    (s.previewing p preview).view q =
      if q = p then { s.view q with session := some preview.session } else s.view q := by
  have hpreviews : (s.previewing p preview).previews.get? q =
      if q = p then some preview else s.previews.get? q := Table.get?_set ..
  unfold view
  rw [hpreviews]
  split <;> rfl

theorem view_withoutPreview (s : Studio) (p q : String) :
    (s.withoutPreview p).view q =
      if q = p then { s.view q with session := none } else s.view q := by
  have hpreviews : (s.withoutPreview p).previews.get? q =
      if q = p then none else s.previews.get? q := Table.get?_erase ..
  unfold view
  rw [hpreviews]
  split <;> rfl

theorem view_adjusted (s : Studio) (options : Options) (q : String) :
    (s.adjusted options).view q = { s.view q with options } := by
  have hpreviews : ((s.adjusted options).previews.get? q).map Preview.session =
      (s.previews.get? q).map Preview.session := by
    rw [Studio.adjusted, Table.get?_map, Option.map_map]
    rfl
  unfold view
  rw [hpreviews]
  rfl

theorem view_move (hs : s.Laid) (hop : op.process? = some p) (hne : q ≠ p) (hm : Move op s t) :
    t.view q = s.view q := by
  cases hm with
  | numbered => rfl
  | product hnone | task hnone | process hnone => exact nomatch hnone.symm.trans hop
  | loaded hr =>
    cases hop.symm.trans hr
    rw [view_laidOut hs, if_neg hne]
  | edited hr ho =>
    cases hop.symm.trans hr
    rw [view_written hs ho, if_neg hne]
  | replaced hr =>
    cases hr
    cases hop
    rw [view_withoutPreview, if_neg hne, view_laidOut hs, if_neg hne]
  | saved hr =>
    cases hr
    cases hop
    rw [view_archived, if_neg hne]
  | started hr | stepped hr =>
    cases hr
    cases hop
    rw [view_previewing, if_neg hne]
  | stopped hr =>
    cases hr
    cases hop
    rw [view_withoutPreview, if_neg hne]
  | adjusted hr =>
    cases hr
    cases hop

/-- An operation on another process, also one that fails, changes nothing of what is had for this
one. -/
theorem view_after (hs : s.Laid) (hop : op.process? = some p) (hne : q ≠ p) :
    (s.after op).view q = s.view q := by
  have hkept : (s.after op).Laid ∧ (s.after op).view q = s.view q :=
    after_keeps (P := fun t => t.Laid ∧ t.view q = s.view q)
      (fun _ _ hm ⟨hl, hv⟩ => ⟨hl.move hm, (view_move hl hop hne hm).trans hv⟩) ⟨hs, rfl⟩
  exact hkept.2

end Flowsheet.Studio
