import Flowsheet.Proofs.Success
import Flowsheet.Simulation.Player

/-! The life of a session: which of its parts are filled in each phase, whatever is done to the
graph and to the options on the way. -/

namespace Flowsheet.Simulation

variable {g : Graph} {options : Options} {s t : Session} {notices : List Notice} {n : Nat}

/-- The parts of a session agree with its phase and with each other. -/
structure Session.Coherent (s : Session) : Prop where
  running_iff : s.phase = .running ↔ s.activeNode.isSome
  completed_iff : s.phase = .completed ↔ s.endNode.isSome
  edge_of_completed : s.phase = .completed → s.activeEdge.isSome
  no_edge : s.phase = .idle ∨ s.phase = .halted → s.activeEdge = none
  edge_of_running : s.phase = .running → (s.activeEdge.isSome ↔ 0 < s.stepCount)
  history_le : (s.history.length : Int) ≤ s.stepCount
  history_eq_nil_iff : s.history = [] ↔ s.stepCount = 0
  idle_eq : s.phase = .idle → s = .idle

theorem length_trim_le (options : Options) (history : List String) :
    (options.trim history).length ≤ history.length := by
  unfold Options.trim
  split
  · rw [List.length_drop]
    omega
  · exact Nat.le_refl _

theorem trim_ne_nil (options : Options) {history : List String} (hh : history ≠ []) :
    options.trim history ≠ [] := by
  have hpos := List.length_pos_iff.mpr hh
  unfold Options.trim
  split
  · next limit hl =>
    have hlimit := options.limit_pos limit hl
    rw [ne_eq, List.drop_eq_nil_iff]
    omega
  · exact hh

theorem trim_of_none (ho : options.historyLimit = none) (history : List String) :
    options.trim history = history := by
  rw [Options.trim, ho]

/-- The exits of a step. -/
inductive Exit (s : Session) : Session → Prop where
  | resting (hp : pending? s = none) : Exit s s
  | nodeLost {id : String} (hp : pending? s = some id) : Exit s (halt s)
  | deadEnd {id : String} (hp : pending? s = some id) (options : Options) (node : Node)
      (e : Effect) : Exit s (halt (executed options s node e))
  | completed {id : String} (hp : pending? s = some id) (options : Options) (node : Node)
      (e : Effect) (edge last : String) :
      Exit s { executed options s node e with
        phase := .completed, activeNode := none, activeEdge := some edge, endNode := some last }
  | advanced {id : String} (hp : pending? s = some id) (options : Options) (node : Node)
      (e : Effect) (edge next : String) :
      Exit s { executed options s node e with activeNode := some next, activeEdge := some edge }

theorem exit_of_step (hs : step options g s = .ok (t, notices)) : Exit s t := by
  unfold step at hs
  cases hp : pending? s with
  | none =>
    rw [hp] at hs
    cases hs
    exact .resting hp
  | some id =>
    simp only [hp] at hs
    cases hn : g.node? id with
    | none =>
      simp only [hn] at hs
      cases hs
      exact .nodeLost hp
    | some node =>
      simp only [hn] at hs
      obtain ⟨⟨next, later⟩, hf, he⟩ := bind_eq_ok.mp hs
      cases he
      unfold follow at hf
      cases hedge : g.nextEdge? node with
      | none =>
        simp only [hedge] at hf
        cases hf
        exact .deadEnd hp options node _
      | some edge =>
        simp only [hedge] at hf
        obtain ⟨target, -, hf⟩ := bind_eq_ok.mp hf
        split at hf
        · cases hf
          exact .completed hp options node _ _ _
        · cases hf
          exact .advanced hp options node _ _ _

theorem pending?_eq_some {id : String} (hp : pending? s = some id) :
    s.phase = .running ∧ s.activeNode = some id := by
  unfold pending? at hp
  split at hp
  · next hr => exact ⟨hr, hp⟩
  · cases hp

theorem pending?_of_not_running (hr : s.phase ≠ .running) : pending? s = none :=
  if_neg hr

/-- What a step keeps, a run keeps. -/
theorem run_keeps {P : Session → Prop}
    (hstep : ∀ {s t notices}, step options g s = .ok (t, notices) → P s → P t)
    (hr : run options g s n = .ok (t, notices)) (hs : P s) : P t := by
  induction n generalizing s notices with
  | zero =>
    cases hr
    exact hs
  | succ n ih =>
    unfold run at hr
    split at hr
    · obtain ⟨⟨next, early⟩, hnext, hr⟩ := bind_eq_ok.mp hr
      obtain ⟨⟨last, later⟩, hlast, hr⟩ := bind_eq_ok.mp hr
      cases hr
      exact ih hlast (hstep hnext hs)
    · cases hr
      exact hs

namespace Session.Coherent

theorem stepCount_nonneg (hs : s.Coherent) : 0 ≤ s.stepCount := by
  have := hs.history_le
  omega

theorem idle : Session.idle.Coherent := by
  constructor <;> simp [Session.idle]

theorem start (g : Graph) (seed : List (String × Value)) : (start g seed).1.Coherent := by
  unfold Simulation.start
  cases g.ofKind .start <;> constructor <;> simp [Session.idle]

theorem executed_history_le (hs : s.Coherent) (options : Options) (node : Node) (e : Effect) :
    ((executed options s node e).history.length : Int) ≤ (executed options s node e).stepCount := by
  have hle := hs.history_le
  have htrim := length_trim_le options (s.history ++ [node.id])
  rw [List.length_append, List.length_singleton] at htrim
  simp only [executed]
  omega

theorem executed_stepCount_pos (hs : s.Coherent) (options : Options) (node : Node) (e : Effect) :
    0 < (executed options s node e).stepCount := by
  have := hs.stepCount_nonneg
  simp only [executed]
  omega

theorem executed_history_eq_nil_iff (hs : s.Coherent) (options : Options) (node : Node)
    (e : Effect) :
    (executed options s node e).history = [] ↔ (executed options s node e).stepCount = 0 := by
  have hpos := hs.executed_stepCount_pos options node e
  have hne : (executed options s node e).history ≠ [] :=
    trim_ne_nil options (List.append_ne_nil_of_right_ne_nil _ (List.cons_ne_nil _ _))
  exact iff_of_false hne (by omega)

theorem exit (hs : s.Coherent) (hx : Exit s t) : t.Coherent := by
  have hend : ∀ {id}, pending? s = some id → s.phase = .running ∧ s.endNode = none := by
    intro id hp
    obtain ⟨hr, -⟩ := pending?_eq_some hp
    exact ⟨hr, by simpa [hr] using hs.completed_iff⟩
  cases hx with
  | resting => exact hs
  | nodeLost hp =>
    obtain ⟨-, he⟩ := hend hp
    constructor <;> simp [halt, he, hs.history_le, hs.history_eq_nil_iff]
  | deadEnd hp options node e =>
    obtain ⟨-, he⟩ := hend hp
    have hlast : (executed options s node e).endNode = none := he
    constructor <;> simp [halt, hlast, hs.executed_history_le, hs.executed_history_eq_nil_iff]
  | completed hp options node e edge last =>
    constructor <;> simp [hs.executed_history_le, hs.executed_history_eq_nil_iff]
  | advanced hp options node e edge next =>
    obtain ⟨hr, he⟩ := hend hp
    have hphase : (executed options s node e).phase = .running := hr
    have hlast : (executed options s node e).endNode = none := he
    have hpos := hs.executed_stepCount_pos options node e
    constructor <;>
      simp [hphase, hlast, hpos, hs.executed_history_le, hs.executed_history_eq_nil_iff]

theorem step (hs : s.Coherent) (hx : step options g s = .ok (t, notices)) : t.Coherent :=
  hs.exit (exit_of_step hx)

end Session.Coherent

/-- A start or a stop makes a new session; the other commands go on with the one there is. -/
def Command.renews : Command → Bool
  | .start _ | .stop => true
  | _ => false

namespace Player

variable {p q : Player} {c : Command}

section Keeps

variable {P : Session → Prop} (hstep : ∀ {options : Options} {g : Graph} {s t : Session}
  {notices : List Notice}, step options g s = .ok (t, notices) → P s → P t)
include hstep

/-- What a step keeps of a session, each command keeps that goes on with the session. -/
theorem perform_keeps (hr : c.renews = false) (hc : p.perform c = .ok (q, notices))
    (hp : P p.session) : P q.session := by
  cases c with
  | start | stop => cases hr
  | step =>
    obtain ⟨⟨t, later⟩, ht, he⟩ := map_eq_ok.mp hc
    cases he
    exact hstep ht hp
  | run steps =>
    obtain ⟨⟨t, later⟩, ht, he⟩ := map_eq_ok.mp hc
    cases he
    exact run_keeps hstep ht hp
  | setOptions options =>
    cases hc
    exact hp
  | edit e =>
    obtain ⟨g, -, he⟩ := map_eq_ok.mp hc
    cases he
    exact hp

theorem tryCommand_keeps (hr : c.renews = false) (hp : P p.session) :
    P (p.tryCommand c).session := by
  unfold tryCommand
  split
  · next hc => exact perform_keeps hstep hr hc hp
  · exact hp

theorem playAll_keeps {commands : List Command} (hr : ∀ c ∈ commands, c.renews = false)
    (hp : P p.session) : P (p.playAll commands).session := by
  induction commands generalizing p with
  | nil => exact hp
  | cons c commands ih =>
    exact ih (fun c hm => hr c (List.mem_cons_of_mem _ hm))
      (tryCommand_keeps hstep (hr c List.mem_cons_self) hp)

end Keeps

theorem coherent_tryCommand (hp : p.session.Coherent) (c : Command) :
    (p.tryCommand c).session.Coherent := by
  cases c with
  | start seed => exact .start p.graph seed
  | stop => exact .idle
  | step | run | setOptions | edit => exact tryCommand_keeps (fun hx hs => hs.step hx) rfl hp

theorem coherent_playAll (hp : p.session.Coherent) (commands : List Command) :
    (p.playAll commands).session.Coherent := by
  induction commands generalizing p with
  | nil => exact hp
  | cons c commands ih => exact ih (coherent_tryCommand hp c)

theorem perform_step_resting (hp : p.session.phase ≠ .running) : p.perform .step = .ok (p, []) := by
  simp only [perform, Simulation.step, pending?_of_not_running hp]
  rfl

theorem perform_run_resting (hp : p.session.phase ≠ .running) (steps : Nat) :
    p.perform (.run steps) = .ok (p, []) := by
  cases steps <;> simp only [perform, Simulation.run, if_neg hp] <;> rfl

theorem session_tryCommand_resting (hp : p.session.phase ≠ .running) (hc : ¬ c.renews) :
    (p.tryCommand c).session = p.session := by
  unfold tryCommand
  cases c with
  | start seed => exact absurd rfl hc
  | step => rw [perform_step_resting hp]
  | run steps => rw [perform_run_resting hp]
  | stop => exact absurd rfl hc
  | setOptions options => rfl
  | edit e => cases he : p.graph.edit e <;> simp [perform, he, Except.map]

theorem session_playAll_resting (hp : p.session.phase ≠ .running) {commands : List Command}
    (hc : ∀ c ∈ commands, ¬ c.renews) : (p.playAll commands).session = p.session := by
  induction commands generalizing p with
  | nil => rfl
  | cons c commands ih =>
    have hfirst := session_tryCommand_resting hp (hc c List.mem_cons_self)
    have hrest := ih (hfirst ▸ hp) (fun d hd => hc d (List.mem_cons_of_mem c hd))
    exact hrest.trans hfirst

/-- What holds of a player at every point of its history. -/
structure Lifecycle (p : Player) : Prop where
  coherent : p.session.Coherent
  resting : p.session.phase ≠ .running → ∀ later : List Command, (∀ c ∈ later, ¬ c.renews) →
    (p.playAll later).session = p.session ∧
      (p.playAll later).perform .step = .ok (p.playAll later, []) ∧
      ∀ steps, (p.playAll later).perform (.run steps) = .ok (p.playAll later, [])

theorem lifecycle_playAll (g : Graph) (options : Options) (commands : List Command) :
    ((ofGraph g options).playAll commands).Lifecycle where
  coherent := coherent_playAll .idle commands
  resting hp later hl := by
    have hs := session_playAll_resting hp hl
    have hq := hs.symm ▸ hp
    exact ⟨hs, perform_step_resting hq, perform_run_resting hq⟩

end Player

end Flowsheet.Simulation
