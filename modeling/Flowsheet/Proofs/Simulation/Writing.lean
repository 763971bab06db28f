import Flowsheet.Proofs.Simulation.History
import Flowsheet.Proofs.Simulation.Sending

/-! What the steps of a run write. An executed node writes one variable at most, the result of its
template; nothing else happens to the variables, so that the names of a run are those that it was
started with and those that its nodes wrote. -/

namespace Flowsheet

/-- The name that is given counts, without the blanks around it. Where it is missing or blank, the
first name that the template reads takes its place. -/
inductive Template.Receives (template : String) : Option String → String → Prop where
  | given (name : String) : Text.trim name ≠ "" →
      Receives template (some name) (Text.trim name)
  | read {blank : Option String} {name : String} : (∀ b ∈ blank, Text.trim b = "") →
      (references template).head? = some name → name ≠ "" → Receives template blank name

theorem Template.target?_eq_some_iff {template : String} {given : Option String} {name : String} :
    target? template given = some name ↔ Receives template given name := by
  have hread : (references template).head?.filter (· ≠ "") = some name ↔
      (references template).head? = some name ∧ name ≠ "" := by
    simp [Option.filter_eq_some_iff]
  constructor
  · intro ht
    unfold target? at ht
    cases hg : (given.map Text.trim).filter (· ≠ "") with
    | none =>
      rw [hg] at ht
      obtain ⟨hname, hne⟩ := hread.mp ht
      refine .read (fun b hb => ?_) hname hne
      simpa [Option.mem_def.mp hb, Option.filter_eq_none_iff] using hg
    | some trimmed =>
      rw [hg] at ht
      obtain ⟨hmap, hne⟩ := Option.filter_eq_some_iff.mp hg
      obtain ⟨first, rfl, rfl⟩ := Option.map_eq_some_iff.mp hmap
      cases ht
      exact .given first (by simpa using hne)
  · intro hr
    unfold target?
    cases hr with
    | given first hne => simp [hne]
    | read hblank hname hne =>
      have hnone : (given.map Text.trim).filter (· ≠ "") = none := by
        simpa [Option.filter_eq_none_iff] using hblank
      rw [hnone]
      exact hread.mpr ⟨hname, hne⟩

theorem Table.mem_keys_setAll {α : Type} {t : Table α} {name : String}
    {entries : List (String × α)} (hn : name ∈ (t.setAll entries).keys) :
    name ∈ entries.map Prod.fst ∨ name ∈ t.keys := by
  obtain ⟨entry, he, rfl⟩ := List.mem_map.mp hn
  exact (mem_entries_setAll he).imp List.mem_map_of_mem List.mem_map_of_mem

namespace Simulation

variable {g : Graph} {options : Options} {s t : Session} {node : Node} {vars : Variables}
  {template id name : String} {given : Option String} {value : Double}
  {seed : List (String × Value)} {ids : List String}

/-- A math node with a template to evaluate, and the name given for the result. -/
structure Computes (node : Node) (template : String) (given : Option String) : Prop where
  isMath : node.kind.isMath = true
  body_eq : node.payload.body = .math (some template) given
  ne_empty : template ≠ ""

theorem computes_iff : Computes node template given ↔
    template? node = some template ∧ resultName node = given := by
  unfold template? resultName
  constructor
  · rintro ⟨hm, hb, hne⟩
    simp [hm, hb, hne]
  · rintro ⟨ht, hg⟩
    split at ht
    · next expression result hm hb =>
      rw [hb] at hg
      obtain ⟨rfl, hne⟩ := Option.filter_eq_some_iff.mp ht
      exact ⟨hm, hg ▸ hb, by simpa using hne⟩
    · cases ht

/-- The node has a result, and the name receives it. -/
def Writes (node : Node) (vars : Variables) (name : String) (value : Double) : Prop :=
  ∃ template given, Computes node template given ∧
    Expression.evaluate template vars.get? = .ok value ∧ Template.Receives template given name

/-- The template of the node cannot be evaluated. -/
def Fails (node : Node) (vars : Variables) : Prop :=
  ∃ template given failure, Computes node template given ∧
    Expression.evaluate template vars.get? = .error failure

theorem effect_eq_assigned_iff : effect node vars = .assigned name value ↔
    Writes node vars name value := by
  constructor
  · intro he
    unfold effect at he
    split at he
    · cases he
    · next template ht =>
      split at he
      · cases he
      · next value hv =>
        split at he
        · next name hn =>
          cases he
          exact ⟨template, _, computes_iff.mpr ⟨ht, rfl⟩, hv, Template.target?_eq_some_iff.mp hn⟩
        · cases he
  · rintro ⟨template, given, hc, hv, hr⟩
    obtain ⟨ht, rfl⟩ := computes_iff.mp hc
    simp only [effect, ht, hv, Template.target?_eq_some_iff.mpr hr]

theorem isSome_error?_effect_iff : (effect node vars).error?.isSome = true ↔ Fails node vars := by
  constructor
  · intro he
    unfold effect at he
    split at he
    · cases he
    · next template ht =>
      split at he
      · next fault text hv => exact ⟨template, _, _, computes_iff.mpr ⟨ht, rfl⟩, hv⟩
      · split at he <;> cases he
  · rintro ⟨template, given, ⟨fault, text⟩, hc, hv⟩
    simp only [effect, (computes_iff.mp hc).1, hv]
    rfl

theorem Effect.applyTo_of_error {e : Effect} (he : e.error?.isSome = true) :
    e.applyTo vars = vars := by
  cases e with
  | failed message => rfl
  | nothing | assigned => cases he

/-- What the execution of a node does to the variables of a session. -/
structure Executes (node : Node) (s t : Session) : Prop where
  written : ∀ name value, Writes node s.vars name value →
    t.vars.get? name = some (.double value) ∧
    (∀ other, other ≠ name → t.vars.get? other = s.vars.get? other) ∧
    t.vars.keys = if name ∈ s.vars.keys then s.vars.keys else s.vars.keys ++ [name]
  unwritten : (∀ name value, ¬ Writes node s.vars name value) → t.vars = s.vars
  error_iff : t.lastError.isSome = true ↔ Fails node s.vars
  of_error : t.lastError.isSome = true → t.vars = s.vars

theorem Course.vars_applyTo (course : Course) (s : Session) :
    (course.applyTo s).vars = s.vars ∧ (course.applyTo s).lastError = s.lastError := by
  cases course <;> exact ⟨rfl, rfl⟩

theorem executes_next (options : Options) (hp : pending? s = some id)
    (hn : g.node? id = some node) : Executes node s (next options g s) := by
  obtain ⟨hvars, herror⟩ :=
    (g.course node).vars_applyTo (executed options s node (effect node s.vars))
  rw [← next_of_node hp hn] at hvars herror
  have hvars : (next options g s).vars = (effect node s.vars).applyTo s.vars := hvars
  have herror : (next options g s).lastError = (effect node s.vars).error? := herror
  constructor
  · intro name value hw
    rw [hvars, effect_eq_assigned_iff.mpr hw]
    refine ⟨?_, fun other hne => ?_, s.vars.keys_set name _⟩
    · rw [Effect.applyTo, Table.get?_set, if_pos rfl]
    · rw [Effect.applyTo, Table.get?_set, if_neg hne]
  · intro hw
    rw [hvars]
    cases he : effect node s.vars with
    | assigned name value => exact absurd (effect_eq_assigned_iff.mp he) (hw name value)
    | nothing | failed => rfl
  · rw [herror]
    exact isSome_error?_effect_iff
  · rw [herror, hvars]
    exact Effect.applyTo_of_error

/-- The variable may receive a result of the node. -/
def Targets (node : Node) (name : String) : Prop :=
  ∃ template given, Computes node template given ∧ Template.Receives template given name

theorem Executes.mem_keys (hx : Executes node s t) (hn : name ∈ t.vars.keys) :
    name ∈ s.vars.keys ∨ Targets node name := by
  by_cases hw : ∃ target value, Writes node s.vars target value
  · obtain ⟨target, value, hw⟩ := hw
    rw [(hx.written target value hw).2.2] at hn
    split at hn
    · exact .inl hn
    · rcases List.mem_append.mp hn with hn | hn
      · exact .inl hn
      · obtain ⟨template, given, hc, -, hr⟩ := hw
        exact .inr ⟨template, given, hc, List.mem_singleton.mp hn ▸ hr⟩
  · rw [hx.unwritten fun target value h => hw ⟨target, value, h⟩] at hn
    exact .inl hn

theorem vars_next_of_none (options : Options) (he : executing? g s = none) :
    (next options g s).vars = s.vars := by
  rcases next_of_not_executing options he with hs | hs <;> rw [hs]
  rfl

theorem keys_prefix_of_step {notices : List Notice} (hs : step options g s = .ok (t, notices)) :
    s.vars.keys <+: t.vars.keys := by
  obtain ⟨e, he⟩ := vars_of_exit (exit_of_step hs)
  exact he ▸ e.keys_prefix_applyTo s.vars

/-- How a variable may come into a session: from a display node, from the seed, or from a math node
among those that were executed. -/
inductive Origin (g : Graph) (seed : List (String × Value)) (ids : List String) (name : String) :
    Prop where
  | displayed {node : Node} : node ∈ g.nodes → name ∈ node.displayed.map Prod.fst →
      Origin g seed ids name
  | seeded : name ∈ seed.map Prod.fst → Origin g seed ids name
  | computed {node : Node} : node ∈ g.nodes → node.id ∈ ids → Targets node name →
      Origin g seed ids name

theorem Origin.append (ho : Origin g seed ids name) (more : List String) :
    Origin g seed (ids ++ more) name := by
  cases ho with
  | displayed hnode hname => exact .displayed hnode hname
  | seeded hname => exact .seeded hname
  | computed hnode hid ht => exact .computed hnode (List.mem_append_left _ hid) ht

/-- Each variable has an origin, if these are the ids of the executed nodes. -/
def Session.Traced (g : Graph) (seed : List (String × Value)) (s : Session) (ids : List String) :
    Prop :=
  ∀ name ∈ s.vars.keys, Origin g seed ids name

theorem traced_start (g : Graph) (seed : List (String × Value)) :
    (start g seed).1.Traced g seed [] := by
  intro name hn
  rw [vars_start] at hn
  rcases Table.mem_keys_setAll hn with hn | hn
  · exact .seeded hn
  · have hdisplayed : name ∈ (Table.empty.setAll (g.nodes.flatMap Node.displayed)).keys := hn
    have hmem := (Table.mem_keys_setAll hdisplayed).resolve_right List.not_mem_nil
    obtain ⟨entry, he, rfl⟩ := List.mem_map.mp hmem
    obtain ⟨node, hnode, he⟩ := List.mem_flatMap.mp he
    exact .displayed hnode (List.mem_map_of_mem he)

theorem Session.Traced.next (hg : g.Sound) (hs : s.Traced g seed ids) (options : Options) :
    (next options g s).Traced g seed (ids ++ (executing? g s).toList) := by
  cases he : executing? g s with
  | none =>
    intro name hn
    rw [vars_next_of_none options he] at hn
    exact (hs name hn).append _
  | some id =>
    obtain ⟨last, node, hp, hnode, rfl⟩ := executing?_eq_some he
    intro name hn
    rcases (executes_next options hp hnode).mem_keys hn with hn | ht
    · exact (hs name hn).append _
    · have hid : node.id ∈ ids ++ [node.id] := List.mem_append_right _ (List.mem_singleton_self _)
      exact .computed (hg.mem_of_node? hnode).1 hid ht

namespace Player

variable {p q : Player} {c : Command}

theorem traced_tryCommand (hq : q.graph.Sound) (hs : q.session.Traced q.graph seed ids)
    (hc : c.renews = false) (he : ∀ e, c ≠ .edit e) :
    (q.tryCommand c).graph = q.graph ∧
      (q.tryCommand c).session.Traced q.graph seed (q.trailAfter ids c) := by
  cases c with
  | start | stop => cases hc
  | step =>
    rw [tryCommand_step hq]
    exact ⟨rfl, iterate_keeps (fun hs => hs.next hq q.options) hs 1⟩
  | run n =>
    rw [tryCommand_run hq]
    exact ⟨rfl, iterate_keeps (fun hs => hs.next hq q.options) hs n⟩
  | setOptions options => exact ⟨rfl, hs⟩
  | edit e => exact absurd rfl (he e)

theorem traced_playAll (hp : p.graph.Sound) (hs : p.session.Traced p.graph seed ids)
    {commands : List Command} (hc : ∀ c ∈ commands, c.renews = false)
    (he : ∀ e, .edit e ∉ commands) :
    (p.playAll commands).session.Traced p.graph seed (p.trail ids commands) := by
  have hkept : (p.playAll commands).graph = p.graph ∧
      (p.playAll commands).session.Traced p.graph seed (p.trail ids commands) := by
    refine trail_keeps (P := fun q ids => q.graph = p.graph ∧ q.session.Traced p.graph seed ids)
      ?_ ⟨rfl, hs⟩
    rintro q ids c hm ⟨hgraph, hs⟩
    rw [← hgraph] at hp hs ⊢
    exact traced_tryCommand hp hs (hc c hm) fun e hce => he e (hce ▸ hm)
  exact hkept.2

/-- What a player writes: with one step, with any commands that go on with the session, and from a
start of the session on. -/
structure WritesOnce (p : Player) : Prop where
  executed : ∀ node, (pending? p.session).bind p.graph.node? = some node →
    ∃ t notices, p.perform .step = .ok ({ p with session := t }, notices) ∧
      Executes node p.session t
  unexecuted : (pending? p.session).bind p.graph.node? = none →
    ∃ t notices, p.perform .step = .ok ({ p with session := t }, notices) ∧
      t.vars = p.session.vars
  run_eq : ∀ n, ∃ notices,
    p.perform (.run n) = .ok (p.playAll (List.replicate n .step), notices)
  kept : ∀ commands, (∀ c ∈ commands, c.renews = false) →
    p.session.vars.keys <+: (p.playAll commands).session.vars.keys
  traced : ∀ seed later, (∀ c ∈ later, c.renews = false) → (∀ e, .edit e ∉ later) →
    (p.playAll (.start seed :: later)).session.Traced p.graph seed
      ((p.tryCommand (.start seed)).trail [] later)

/-- A step writes one variable at most, whatever the session is. -/
theorem writesOnce (p : Player) (hp : p.graph.Built) : p.WritesOnce where
  executed node hnode := by
    obtain ⟨id, hpending, hnode⟩ := Option.bind_eq_some_iff.mp hnode
    obtain ⟨notices, hs⟩ := perform_step hp.sound
    exact ⟨_, notices, hs, executes_next p.options hpending hnode⟩
  unexecuted hnone := by
    obtain ⟨notices, hs⟩ := perform_step hp.sound
    exact ⟨_, notices, hs, vars_next_of_none p.options (Option.map_eq_none_iff.mpr hnone)⟩
  run_eq := perform_run hp.sound
  kept _ hc := playAll_keeps (P := fun t => p.session.vars.keys <+: t.vars.keys)
    (fun hx hs => hs.trans (keys_prefix_of_step hx)) hc (List.prefix_refl _)
  traced seed later hc he := by
    have hsound : (p.tryCommand (.start seed)).graph.Sound := hp.sound
    exact traced_playAll hsound (traced_start p.graph seed) hc he

/-- A run that has come to the node which divides by the level. -/
def draining : Player where
  graph := drained
  options := .unlimited
  session := { Session.idle with
    phase := .running, activeNode := some "share", vars := .ofEntries [("level", .int 0)] }

theorem draining_writesOnce : draining.graph.Built ∧ pending? draining.session = some "share" ∧
    (draining.tryCommand .step).session.vars.keys = ["level", "share"] ∧ draining.WritesOnce :=
  ⟨built_drained, rfl, by decide +kernel, writesOnce draining built_drained⟩

end Player

end Simulation

end Flowsheet
