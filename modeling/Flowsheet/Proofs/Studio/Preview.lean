import Flowsheet.Proofs.Simulation.Course
import Flowsheet.Proofs.Studio.Move

/-! What a simulation of the studio plays. It plays the sheet that is being edited for its process,
with the options that the studio has, and it ends when another sheet is laid there. -/

namespace Flowsheet

theorem Catalog.contains_add {α : Type} {c d : Catalog α} {key name : String} {record : α}
    (ha : c.add key record = .ok d) (hn : c.contains name = true) : d.contains name = true := by
  unfold Catalog.add at ha
  split at ha
  · cases ha
  · cases ha
    rw [Catalog.contains, Table.contains, Table.get?_set]
    split
    · rfl
    · exact hn

theorem Studio.Operation.Edits.isMade {op : Studio.Operation} {e : Graph.Edit} (he : op.Edits e) :
    e.IsMade := by
  cases he with
  | @addNode kind payload position id node hn =>
    obtain ⟨-, rfl, -⟩ := Node.make_eq_ok hn
    exact ⟨payload, hn⟩
  | connect | updatePayload | removeNode => trivial

namespace Studio

open Simulation (Options Session Notice)

variable {op : Operation} {s t : Studio} {process : String} {preview : Preview} {g : Graph}

theorem listed_move (hm : Move op s t) (hp : s.processes.contains process = true) :
    t.processes.contains process = true := by
  cases hm with
  | process _ ha => exact Catalog.contains_add ha hp
  | _ => exact hp

theorem sheet_laidOut (s : Studio) (process : String) (g : Graph) (n : Nat) :
    (s.laidOut process g).sheet n = if n = s.sheets.length then g else s.sheet n := by
  simp only [sheet, laidOut, List.getD_eq_getElem?_getD, List.getElem?_append,
    List.getElem?_singleton]
  split
  · next hlt => rw [if_neg (by omega)]
  · next hle =>
    by_cases hn : n = s.sheets.length
    · simp [hn]
    · rw [if_neg (by omega), if_neg hn, List.getElem?_eq_none (by omega)]

theorem sheet_written (s : Studio) (m n : Nat) (g : Graph) :
    (s.written m g).sheet n = if m = n ∧ n < s.sheets.length then g else s.sheet n := by
  simp only [sheet, written, List.getD_eq_getElem?_getD, List.getElem?_set]
  by_cases hm : m = n
  · by_cases hn : n < s.sheets.length <;> simp [hm, hn]
  · simp [hm]

theorem sheets_laidOut {P : Graph → Prop} (hs : ∀ n, P (s.sheet n)) (hg : P g) (process : String)
    (n : Nat) : P ((s.laidOut process g).sheet n) := by
  rw [sheet_laidOut]
  split
  · exact hg
  · exact hs n

theorem sheets_written {P : Graph → Prop} (hs : ∀ n, P (s.sheet n)) (hg : P g) (m n : Nat) :
    P ((s.written m g).sheet n) := by
  rw [sheet_written]
  split
  · exact hg
  · exact hs n

/-- The simulation plays the sheet of its process, with the options of the studio. -/
structure Follows (s : Studio) (process : String) (preview : Preview) : Prop
    extends s.Opened process preview.sheet where
  options_eq : preview.options = s.options

structure Steady (s : Studio) : Prop where
  follows : ∀ process preview, s.previews.get? process = some preview → s.Follows process preview
  sheet_built : ∀ n, (s.sheet n).Built

theorem steady_reopened (s : Studio) : s.reopened.Steady where
  follows _ _ hv := nomatch hv
  sheet_built _ := .empty

theorem Follows.laidOut (hf : s.Follows process preview) {other : String} (hne : process ≠ other)
    (g : Graph) : (s.laidOut other g).Follows process preview where
  listed := hf.listed
  opened_eq := by
    rw [Studio.laidOut, Table.get?_set, if_neg hne]
    exact hf.opened_eq
  options_eq := hf.options_eq

namespace Steady

theorem not_playing (hs : s.Steady) (ho : s.opened.get? process = none) :
    s.previews.get? process = none := by
  cases hv : s.previews.get? process with
  | none => rfl
  | some preview => exact nomatch ho.symm.trans (hs.follows process preview hv).opened_eq

theorem laidOut (hs : s.Steady) (hp : s.previews.get? process = none) (hg : g.Built) :
    (s.laidOut process g).Steady where
  follows other preview hv := by
    -- The sheet is new, so that only a simulation of this process could have lost its own.
    have hne : other ≠ process := by
      rintro rfl
      exact nomatch hp.symm.trans hv
    exact (hs.follows other preview hv).laidOut hne g
  sheet_built := sheets_laidOut hs.sheet_built hg process

theorem written (hs : s.Steady) (hg : g.Built) (n : Nat) : (s.written n g).Steady where
  follows other preview hv := { hs.follows other preview hv with }
  sheet_built := sheets_written hs.sheet_built hg n

theorem withoutPreview (hs : s.Steady) (process : String) : (s.withoutPreview process).Steady where
  follows other preview hv := by
    rw [Studio.withoutPreview, Table.get?_erase] at hv
    split at hv
    · cases hv
    · exact { hs.follows other preview hv with }
  sheet_built := hs.sheet_built

theorem replaced (hs : s.Steady) (hg : g.Built) (process : String) :
    ((s.laidOut process g).withoutPreview process).Steady := by
  have hp : (s.withoutPreview process).previews.get? process = none := by
    rw [Studio.withoutPreview, Table.get?_erase, if_pos rfl]
  exact (hs.withoutPreview process).laidOut hp hg

theorem previewing (hs : s.Steady) (hf : s.Follows process preview) :
    (s.previewing process preview).Steady where
  follows other last hv := by
    rw [Studio.previewing, Table.get?_set] at hv
    split at hv
    · next he =>
      cases hv
      rw [he]
      exact { hf with }
    · exact { hs.follows other last hv with }
  sheet_built := hs.sheet_built

theorem adjusted (hs : s.Steady) (options : Options) : (s.adjusted options).Steady where
  follows other preview hv := by
    rw [Studio.adjusted, Table.get?_map] at hv
    obtain ⟨old, hold, rfl⟩ := Option.map_eq_some_iff.mp hv
    exact { hs.follows other old hold with options_eq := rfl }
  sheet_built := hs.sheet_built

theorem move (hs : s.Steady) (hm : Move op s t) : t.Steady := by
  cases hm with
  | numbered | product | task | saved =>
    exact ⟨fun other preview hv => { hs.follows other preview hv with }, hs.sheet_built⟩
  | process hop ha =>
    exact ⟨fun other preview hv => { hs.follows other preview hv with
      listed := Catalog.contains_add ha (hs.follows other preview hv).listed }, hs.sheet_built⟩
  | loaded hop hp ho hg => exact hs.laidOut (hs.not_playing ho) (.loaded hg)
  | @edited _ n _ _ hop ho he hg =>
    have hedited := (hs.sheet_built n).edited he.isMade
    rw [Graph.tryEdit, hg] at hedited
    exact hs.written hedited n
  | replaced hop hp hg => exact hs.replaced (.loaded hg) _
  | started hop hp ho => exact hs.previewing ⟨⟨hp, ho⟩, rfl⟩
  | stepped hop hv => exact hs.previewing { hs.follows _ _ hv with }
  | stopped => exact hs.withoutPreview _
  | adjusted => exact hs.adjusted _

end Steady

theorem Reachable.steady (hs : s.Reachable) : s.Steady :=
  hs.invariant steady_reopened fun _ _ _ hm hk => hk.move hm

/-- Whether the process has a simulation, which may have come to its end. -/
def isPlaying (s : Studio) (process : String) : Bool :=
  s.previews.contains process

theorem outcome_requireProcess (hp : s.processes.contains process = true) :
    outcome (requireProcess process) s = (.ok (), s) := by
  unfold requireProcess
  rw [outcome_get_bind, hp]
  rfl

theorem outcome_sheetOf_of_opened {n : Nat} (ho : s.Opened process n) :
    outcome (sheetOf process) s = (.ok n, s) := by
  unfold sheetOf
  rw [outcome_bind_of_ok (outcome_requireProcess ho.listed), outcome_get_bind, ho.opened_eq]
  rfl

theorem outcome_graph_of_opened {n : Nat} (ho : s.Opened process n) :
    outcome (graph process) s = (.ok (s.sheet n), s) := by
  unfold graph
  rw [outcome_bind_of_ok (outcome_sheetOf_of_opened ho)]
  rfl

theorem outcome_step_of_playing {session : Session} {notices : List Notice}
    (hv : s.previews.get? process = some preview)
    (hn : Simulation.step preview.options (s.sheet preview.sheet) preview.session =
      .ok (session, notices)) :
    outcome (step process) s = (.ok session, s.previewing process { preview with session }) := by
  unfold step
  rw [outcome_get_bind, hv]
  exact outcome_attempt_bind_of_ok hn

theorem outcome_step_of_resting (hv : s.previews.get? process = none) :
    outcome (step process) s = (.ok .idle, s) := by
  unfold step
  rw [outcome_get_bind, hv]
  rfl

theorem session_of_playing (hv : s.previews.get? process = some preview) :
    s.session process = preview.session := by
  rw [session, hv]
  rfl

/-- The process has a simulation, and a step of it is one of its session on the graph being edited,
with these options. -/
structure Plays (s : Studio) (process : String) (options : Options) : Prop where
  playing : s.isPlaying process = true
  steps : ∃ g session notices t, outcome (graph process) s = (.ok g, s) ∧
    Simulation.step options g (s.session process) = .ok (session, notices) ∧
    outcome (step process) s = (.ok session, t) ∧ t.session process = session

structure Rests (s : Studio) (process : String) : Prop where
  not_playing : s.isPlaying process = false
  session_eq : s.session process = .idle
  step_eq : outcome (step process) s = (.ok .idle, s)

theorem Steady.plays (hs : s.Steady) (hp : s.isPlaying process = true) :
    s.Plays process s.options := by
  obtain ⟨preview, hv⟩ := Option.isSome_iff_exists.mp hp
  have hf := hs.follows process preview hv
  obtain ⟨notices, hn⟩ := Simulation.step_eq (hs.sheet_built preview.sheet).sound
    preview.options preview.session
  refine ⟨hp, s.sheet preview.sheet, _, notices, _, outcome_graph_of_opened hf.toOpened, ?_,
    outcome_step_of_playing hv hn, ?_⟩
  · rw [session_of_playing hv, ← hf.options_eq, hn]
  · rw [session, Studio.previewing, Table.get?_set, if_pos rfl]
    rfl

theorem rests (hv : s.previews.get? process = none) : s.Rests process where
  not_playing := by rw [isPlaying, Table.contains, hv, Option.isSome_none]
  session_eq := by
    rw [session, hv]
    rfl
  step_eq := outcome_step_of_resting hv

/-- What is played is what is being edited, also after the graph or the options were changed. -/
structure PlaysCurrent (s : Studio) (process : String) : Prop where
  playing : s.isPlaying process = true → s.Plays process s.options
  resting : s.isPlaying process = false → s.Rests process
  replaced : ∀ document g t, outcome (replaceWorkflow process document) s = (.ok g, t) →
    t.Rests process ∧ outcome (graph process) t = (.ok g, t)
  adjusted : ∀ limit options t, outcome (setHistoryLimit limit) s = (.ok options, t) →
    s.isPlaying process = true →
    t.Plays process options ∧ t.session process = s.session process

theorem Steady.plays_adjusted (hs : s.Steady) (hp : s.isPlaying process = true)
    (options : Options) : (s.adjusted options).Plays process options ∧
      (s.adjusted options).session process = s.session process := by
  have hpreviews : (s.adjusted options).previews.get? process =
      (s.previews.get? process).map fun preview => { preview with options } :=
    Table.get?_map ..
  constructor
  · refine (hs.adjusted options).plays ?_
    rw [isPlaying, Table.contains, hpreviews, Option.isSome_map]
    exact hp
  · rw [session, session, hpreviews, Option.map_map]
    rfl

theorem Reachable.playsCurrent (hs : s.Reachable) (process : String) : s.PlaysCurrent process where
  playing hp := hs.steady.plays hp
  resting hp := rests (Option.not_isSome_iff_eq_none.mp (Bool.eq_false_iff.mp hp))
  replaced document g t ho := by
    obtain ⟨hp, rfl⟩ := (reaches_replaceWorkflow process document).of_ok ho
    constructor
    · refine rests ?_
      rw [Studio.withoutPreview, Table.get?_erase, if_pos rfl]
    · have hopened : ((s.laidOut process g).withoutPreview process).Opened process
          s.sheets.length :=
        { opened_laidOut hp g with }
      have hsheet : ((s.laidOut process g).withoutPreview process).sheet s.sheets.length = g :=
        (sheet_laidOut s process g _).trans (if_pos rfl)
      rw [outcome_graph_of_opened hopened, hsheet]
  adjusted limit options t ho hp := by
    rw [(reaches_setHistoryLimit limit).of_ok ho]
    exact hs.steady.plays_adjusted hp options

/-- The jar is put at the end after the start, and a process that is not listed cannot be started. -/
def pressing : Studio :=
  Studio.empty.afterAll
    [.addProcess "Pressing" "" (some "pressing"),
      .addNode "pressing" .start none (some "pick") .origin, .start "pressing" [],
      .addNode "pressing" .finish none (some "jar") .origin,
      .connect "pressing" "pick" "jar" none, .start "drying" []]

theorem pressing_playsCurrent : pressing.Reachable ∧ pressing.isPlaying "pressing" = true ∧
    ((pressing.after (.step "pressing")).session "pressing").phase = .completed ∧
    ∀ process, pressing.PlaysCurrent process := by
  have hr : pressing.Reachable := (Reachable.reopened Studio.empty).afterAll _
  exact ⟨hr, by decide, by decide, hr.playsCurrent⟩

end Studio

end Flowsheet
