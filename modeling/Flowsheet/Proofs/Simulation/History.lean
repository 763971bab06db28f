import Flowsheet.Proofs.Simulation.Control
import Flowsheet.Proofs.Simulation.Termination
import Mathlib.Data.List.DropRight

/-! A limit on the history trims it and does nothing else. Two players are given the same commands,
and the options of one of them change on the way while the other keeps its whole history. -/

namespace Flowsheet.Simulation

variable {g : Graph} {options : Options} {s t : Session} {id : String} {ids : List String}

namespace Options

theorem trim_of_mem {limit : Nat} (ho : limit ∈ options.historyLimit) (ids : List String) :
    options.trim ids = ids.rtake limit := by
  rw [trim, Option.mem_def.mp ho]
  rfl

theorem trim_suffix (options : Options) (ids : List String) : options.trim ids <:+ ids := by
  unfold trim
  split
  · exact List.drop_suffix _ _
  · exact List.suffix_rfl

theorem trim_nil (options : Options) : options.trim [] = [] :=
  List.suffix_nil.mp (options.trim_suffix [])

/-- What was trimmed earlier would be trimmed now. -/
theorem trim_concat_trim (options : Options) (ids : List String) (id : String) :
    options.trim (options.trim ids ++ [id]) = options.trim (ids ++ [id]) := by
  cases ho : options.historyLimit with
  | none => rw [trim_of_none ho ids]
  | some limit =>
    obtain ⟨n, rfl⟩ := Nat.exists_eq_add_one.mpr (options.limit_pos limit ho)
    simp only [trim_of_mem ho, List.rtake_concat_succ]
    simp only [List.rtake, List.drop_drop, List.length_drop]
    congr 2
    omega

end Options

/-- The node that the next step executes, if it is in the graph. -/
def executing? (g : Graph) (s : Session) : Option String :=
  ((pending? s).bind g.node?).map Node.id

theorem executing?_eq_some (he : executing? g s = some id) :
    ∃ last node, pending? s = some last ∧ g.node? last = some node ∧ node.id = id := by
  obtain ⟨node, hn, hid⟩ := Option.map_eq_some_iff.mp he
  obtain ⟨last, hp, hn⟩ := Option.bind_eq_some_iff.mp hn
  exact ⟨last, node, hp, hn, hid⟩

theorem Course.recorded (course : Course) (s : Session) :
    (course.applyTo s).history = s.history ∧ (course.applyTo s).stepCount = s.stepCount := by
  cases course <;> exact ⟨rfl, rfl⟩

theorem recorded_next (options : Options) (he : executing? g s = some id) :
    (next options g s).history = options.trim (s.history ++ [id]) ∧
      (next options g s).stepCount = s.stepCount + 1 := by
  obtain ⟨last, node, hp, hn, rfl⟩ := executing?_eq_some he
  rw [next_of_node hp hn]
  exact (g.course node).recorded _

theorem next_of_not_executing (options : Options) (he : executing? g s = none) :
    next options g s = s ∨ next options g s = halt s := by
  cases hp : pending? s with
  | none => exact .inl (next_resting hp)
  | some last =>
    cases hn : g.node? last with
    | none => exact .inr (next_of_lost hp hn)
    | some node => simp [executing?, hp, hn] at he

theorem recorded_next_of_none (options : Options) (he : executing? g s = none) :
    (next options g s).history = s.history ∧ (next options g s).stepCount = s.stepCount := by
  rcases next_of_not_executing options he with hs | hs <;> rw [hs] <;> exact ⟨rfl, rfl⟩

theorem length_history_next {limit : Nat} (hl : limit ∈ options.historyLimit)
    (he : executing? g s = some id) :
    (next options g s).history.length = min limit (s.history.length + 1) := by
  rw [(recorded_next options he).1, Options.trim_of_mem hl, List.rtake, List.length_drop,
    List.length_append, List.length_singleton]
  omega

/-- The first session is the second one with less history. -/
structure Session.Trims (t s : Session) : Prop where
  rest_eq : { t with history := s.history } = s
  suffix : t.history <:+ s.history

theorem Session.trims_refl (s : Session) : s.Trims s :=
  ⟨rfl, List.suffix_rfl⟩

theorem Session.Trims.exists_history (ht : t.Trims s) :
    ∃ history, t = { s with history := history } ∧ history <:+ s.history := by
  obtain ⟨hrest, hsuffix⟩ := ht
  exact ⟨t.history, by rw [← hrest], hsuffix⟩

theorem Session.Trims.next (ht : t.Trims s) (options : Options) (g : Graph) :
    (next options g t).Trims (next .unlimited g s) := by
  obtain ⟨history, rfl, hsuffix⟩ := ht.exists_history
  -- Both sessions go the same way, which their histories have no part in.
  cases hp : pending? s with
  | none =>
    rw [next_resting hp, next_resting (s := { s with history := history }) hp]
    exact ⟨rfl, hsuffix⟩
  | some id =>
    cases hn : g.node? id with
    | none =>
      rw [next_of_lost hp hn, next_of_lost (s := { s with history := history }) hp hn]
      exact ⟨rfl, hsuffix⟩
    | some node =>
      have hconcat : options.trim (history ++ [node.id]) <:+ s.history ++ [node.id] :=
        (options.trim_suffix _).trans (List.suffix_append_self_iff.mpr hsuffix)
      rw [next_of_node hp hn, next_of_node (s := { s with history := history }) hp hn]
      cases g.course node <;> exact ⟨rfl, hconcat⟩

theorem Session.Trims.iterate (ht : t.Trims s) (options : Options) (g : Graph) (steps : Nat) :
    ((Simulation.next options g)^[steps] t).Trims ((Simulation.next .unlimited g)^[steps] s) := by
  induction steps with
  | zero => exact ht
  | succ steps ih =>
    rw [Function.iterate_succ_apply', Function.iterate_succ_apply']
    exact ih.next options g

def executedIds (options : Options) (g : Graph) (s : Session) : Nat → List String
  | 0 => []
  | steps + 1 =>
    (executing? g s).toList ++ executedIds options g (next options g s) steps

/-- What a step keeps of a session and of the ids executed so far, all steps keep. -/
theorem iterate_keeps {P : Session → List String → Prop}
    (hnext : ∀ {s ids}, P s ids → P (next options g s) (ids ++ (executing? g s).toList))
    (hs : P s ids) (steps : Nat) :
    P ((next options g)^[steps] s) (ids ++ executedIds options g s steps) := by
  induction steps generalizing s ids with
  | zero => rwa [executedIds, List.append_nil]
  | succ steps ih =>
    rw [Function.iterate_succ_apply, executedIds, ← List.append_assoc]
    exact ih (hnext hs)

/-- The history is what the limit leaves of the ids, and the count is that of all of them. -/
structure Session.Records (options : Options) (s : Session) (ids : List String) : Prop where
  history_eq : s.history = options.trim ids
  count_eq : s.stepCount = ids.length

theorem Session.Records.next (hs : s.Records options ids) (g : Graph) :
    (next options g s).Records options (ids ++ (executing? g s).toList) := by
  cases he : executing? g s with
  | none =>
    obtain ⟨hhistory, hcount⟩ := recorded_next_of_none options he
    rw [Option.toList_none, List.append_nil]
    exact ⟨hhistory.trans hs.history_eq, hcount.trans hs.count_eq⟩
  | some id =>
    obtain ⟨hhistory, hcount⟩ := recorded_next options he
    constructor
    · rw [hhistory, hs.history_eq, options.trim_concat_trim, Option.toList_some]
    · rw [hcount, hs.count_eq, List.length_append]
      rfl

theorem Session.Records.iterate (hs : s.Records options ids) (g : Graph) (steps : Nat) :
    ((Simulation.next options g)^[steps] s).Records options
      (ids ++ executedIds options g s steps) :=
  iterate_keeps (fun hs => hs.next g) hs steps

theorem records_start (options : Options) (g : Graph) (seed : List (String × Value)) :
    (start g seed).1.Records options [] := by
  unfold start
  cases g.ofKind .start <;> exact ⟨options.trim_nil.symm, rfl⟩

def Command.setsOptions : Command → Bool
  | .setOptions _ => true
  | _ => false

namespace Player

variable {p q : Player}

/-- The first player is the second one, apart from its options and from what these trimmed. -/
structure Abridges (q p : Player) : Prop where
  sound : p.graph.Sound
  graph_eq : q.graph = p.graph
  options_eq : p.options = .unlimited
  trims : q.session.Trims p.session

theorem abridges_ofGraph (hg : g.Sound) (options : Options) :
    (ofGraph g options).Abridges (ofGraph g .unlimited) :=
  ⟨hg, rfl, rfl, Session.trims_refl _⟩

namespace Abridges

theorem steps (h : q.Abridges p) (n : Nat) :
    Abridges { q with session := (next q.options q.graph)^[n] q.session }
      { p with session := (next p.options p.graph)^[n] p.session } where
  sound := h.sound
  graph_eq := h.graph_eq
  options_eq := h.options_eq
  trims := by
    rw [h.options_eq, h.graph_eq]
    exact h.trims.iterate q.options p.graph n

theorem setOptions (h : q.Abridges p) (options : Options) :
    (q.tryCommand (.setOptions options)).Abridges p :=
  { h with }

theorem both (h : q.Abridges p) {c : Command} (hc : c.setsOptions = false)
    (he : ∀ e, c = .edit e → e.IsMade) : (q.tryCommand c).Abridges (p.tryCommand c) := by
  have hq : q.graph.Sound := h.graph_eq ▸ h.sound
  cases c with
  | start seed =>
    have htrims : (start q.graph seed).1.Trims (start p.graph seed).1 := by
      rw [h.graph_eq]
      exact Session.trims_refl _
    exact { h with trims := htrims }
  | step =>
    rw [tryCommand_step hq, tryCommand_step h.sound]
    exact h.steps 1
  | run n =>
    rw [tryCommand_run hq, tryCommand_run h.sound]
    exact h.steps n
  | stop => exact { h with trims := Session.trims_refl _ }
  | setOptions options => cases hc
  | edit e =>
    rw [tryCommand_edit, tryCommand_edit]
    exact { h with
      sound := h.sound.tryEdit (he e rfl)
      graph_eq := congrArg (Graph.tryEdit · e) h.graph_eq }

theorem playAll (h : q.Abridges p) {commands : List Command}
    (he : ∀ e, .edit e ∈ commands → e.IsMade) :
    (q.playAll commands).Abridges (p.playAll (commands.filter (!·.setsOptions))) := by
  induction commands generalizing p q with
  | nil => exact h
  | cons c cs ih =>
    have htail : ∀ e, .edit e ∈ cs → e.IsMade := fun e hm => he e (List.mem_cons_of_mem _ hm)
    cases hc : c.setsOptions with
    | true =>
      rw [List.filter_cons_of_neg (by simp [hc])]
      cases c with
      | setOptions options => exact ih (h.setOptions options) htail
      | start | step | run | stop | edit => cases hc
    | false =>
      rw [List.filter_cons_of_pos (by simp [hc])]
      exact ih (h.both hc fun e he' => he e (he' ▸ List.mem_cons_self)) htail

end Abridges

/-- The ids of the nodes that were executed since the last start, after one more command. -/
def trailAfter (p : Player) (ids : List String) : Command → List String
  | .start _ | .stop => []
  | .step => ids ++ executedIds p.options p.graph p.session 1
  | .run n => ids ++ executedIds p.options p.graph p.session n
  | .setOptions _ | .edit _ => ids

def trail (p : Player) (ids : List String) : List Command → List String
  | [] => ids
  | c :: cs => (p.tryCommand c).trail (p.trailAfter ids c) cs

theorem records_tryCommand (hp : p.graph.Sound) (hr : p.session.Records p.options ids) {c : Command}
    (hc : c.setsOptions = false) :
    (p.tryCommand c).session.Records p.options (p.trailAfter ids c) := by
  cases c with
  | start seed => exact records_start p.options p.graph seed
  | step =>
    rw [tryCommand_step hp]
    exact hr.iterate p.graph 1
  | run n =>
    rw [tryCommand_run hp]
    exact hr.iterate p.graph n
  | stop => exact ⟨p.options.trim_nil.symm, rfl⟩
  | setOptions options => cases hc
  | edit e =>
    rw [tryCommand_edit]
    exact hr

theorem sound_tryCommand (hp : p.graph.Sound) {c : Command} (he : ∀ e, c = .edit e → e.IsMade) :
    (p.tryCommand c).graph.Sound := by
  cases c with
  | step => rwa [tryCommand_step hp]
  | run n => rwa [tryCommand_run hp]
  | edit e =>
    rw [tryCommand_edit]
    exact hp.tryEdit (he e rfl)
  | start | stop | setOptions => exact hp

theorem options_tryCommand (hp : p.graph.Sound) {c : Command} (hc : c.setsOptions = false) :
    (p.tryCommand c).options = p.options := by
  cases c with
  | step => rw [tryCommand_step hp]
  | run n => rw [tryCommand_run hp]
  | edit e => rw [tryCommand_edit]
  | start | stop => rfl
  | setOptions options => cases hc

/-- What each command keeps of a player and of the ids executed since the last start, all of them
keep. -/
theorem trail_keeps {P : Player → List String → Prop} {commands : List Command}
    (hc : ∀ {p ids c}, c ∈ commands → P p ids → P (p.tryCommand c) (p.trailAfter ids c))
    (hp : P p ids) : P (p.playAll commands) (p.trail ids commands) := by
  induction commands generalizing p ids with
  | nil => exact hp
  | cons c cs ih =>
    exact ih (fun hm => hc (List.mem_cons_of_mem c hm)) (hc List.mem_cons_self hp)

theorem records_playAll (hp : p.graph.Sound) (hr : p.session.Records p.options ids)
    {commands : List Command}
    (hc : ∀ c ∈ commands, c.setsOptions = false) (he : ∀ e, .edit e ∈ commands → e.IsMade) :
    (p.playAll commands).session.Records p.options (p.trail ids commands) := by
  have hkept : (p.playAll commands).graph.Sound ∧ (p.playAll commands).options = p.options ∧
      (p.playAll commands).session.Records p.options (p.trail ids commands) := by
    refine trail_keeps (P := fun q ids =>
      q.graph.Sound ∧ q.options = p.options ∧ q.session.Records p.options ids) ?_ ⟨hp, rfl, hr⟩
    rintro q ids c hm ⟨hq, ho, hr⟩
    refine ⟨sound_tryCommand hq fun e hce => he e (hce ▸ hm),
      (options_tryCommand hq (hc c hm)).trans ho, ?_⟩
    rw [← ho] at hr ⊢
    exact records_tryCommand hq hr (hc c hm)
  exact hkept.2.2

/-- All that the options of the first player do to its session, next to that of the second one. -/
structure OnlyTrims (q p : Player) : Prop where
  trims : q.session.Trims p.session
  step_length : ∀ limit ∈ q.options.historyLimit, ∀ id, executing? q.graph q.session = some id →
    (q.tryCommand .step).session.history.length = min limit (q.session.history.length + 1)
  run_eq : ∀ n, ∃ notices,
    q.perform (.run n) = .ok (q.playAll (List.replicate n .step), notices)
  since_start : ∀ seed later, (∀ c ∈ later, c.setsOptions = false) →
    (∀ e, .edit e ∈ later → e.IsMade) →
    let ids := (q.tryCommand (.start seed)).trail [] later
    (q.playAll (.start seed :: later)).session.stepCount = ids.length ∧
      ∀ limit ∈ q.options.historyLimit,
        (q.playAll (.start seed :: later)).session.history = ids.rtake limit

theorem Abridges.onlyTrims (h : q.Abridges p) : q.OnlyTrims p where
  trims := h.trims
  step_length limit hl id he := by
    rw [tryCommand_step (h.graph_eq ▸ h.sound)]
    exact length_history_next hl he
  run_eq := perform_run (h.graph_eq ▸ h.sound)
  since_start seed later hc he := by
    have hq : (q.tryCommand (.start seed)).graph.Sound := h.graph_eq ▸ h.sound
    have hr := records_playAll hq (records_start q.options q.graph seed) hc he
    exact ⟨hr.count_eq, fun limit hl => hr.history_eq.trans (Options.trim_of_mem hl _)⟩

/-- Whatever the limit is set to on the way, the history is trimmed and nothing else differs. -/
theorem limited_history (g : Graph) (hg : g.Built) (options : Options) (commands : List Command)
    (he : ∀ e, .edit e ∈ commands → e.IsMade) :
    ((ofGraph g options).playAll commands).OnlyTrims
      ((ofGraph g .unlimited).playAll (commands.filter (!·.setsOptions))) :=
  ((abridges_ofGraph hg.sound options).playAll he).onlyTrims

/-- The limit is lowered below the length of the history, and lifted again. -/
theorem cycled_limited_history :
    let options := (Options.ofLimit? (some 2)).getD .unlimited
    let commands := [.start [], .run 3, .setOptions options, .step, .setOptions .unlimited, .step]
    cycled.Built ∧ (∀ e, Command.edit e ∈ commands → e.IsMade) ∧
    ((ofGraph cycled .unlimited).playAll commands).session.history = ["mix", "press", "mix"] ∧
    ((ofGraph cycled .unlimited).playAll commands).OnlyTrims
      ((ofGraph cycled .unlimited).playAll (commands.filter (!·.setsOptions))) := by
  have he : ∀ options : Options, ∀ e, Command.edit e ∈
      [Command.start [], .run 3, .setOptions options, .step, .setOptions .unlimited, .step] →
      e.IsMade := by simp
  exact ⟨built_cycled, he _, by decide,
    limited_history cycled built_cycled .unlimited _ (he _)⟩

end Player

end Flowsheet.Simulation
