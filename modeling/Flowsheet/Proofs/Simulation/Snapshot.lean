import Flowsheet.Proofs.Simulation.Course

/-! A snapshot as a seed. What a session sends of its variables can be given to a new session of the
same graph, which then has the same names in the same order and computes the same. -/

namespace Flowsheet

variable {α : Type}

theorem setEntry_append {key : String} (value : α) {done : List (String × α)}
    (hkey : key ∉ done.map Prod.fst) (rest : List (String × α)) :
    setEntry key value (done ++ rest) = done ++ setEntry key value rest := by
  induction done with
  | nil => rfl
  | cons entry done ih =>
    obtain ⟨k, v⟩ := entry
    rw [List.map_cons, List.mem_cons, not_or] at hkey
    have hne : k ≠ key := Ne.symm hkey.1
    simp only [List.cons_append, setEntry, if_neg hne, ih hkey.2]

/-- Entries that begin with the keys that are there already replace them one by one. -/
theorem foldl_setEntry_of_prefix (done : List (String × α)) {old entries : List (String × α)}
    (hnd : ((done ++ entries).map Prod.fst).Nodup)
    (hold : old.map Prod.fst <+: entries.map Prod.fst) :
    entries.foldl (fun acc entry => setEntry entry.1 entry.2 acc) (done ++ old) =
      done ++ entries := by
  induction entries generalizing done old with
  | nil =>
    have hnil : old = [] := List.map_eq_nil_iff.mp (List.prefix_nil.mp hold)
    rw [hnil, List.foldl_nil]
  | cons entry entries ih =>
    obtain ⟨key, value⟩ := entry
    have happend : done ++ [(key, value)] ++ entries = done ++ (key, value) :: entries := by simp
    have hkey : key ∉ done.map Prod.fst := by
      intro hmem
      rw [List.map_append] at hnd
      exact (List.nodup_append.mp hnd).2.2 key hmem key (by simp) rfl
    have hset : ∃ left, left.map Prod.fst <+: entries.map Prod.fst ∧
        setEntry key value (done ++ old) = done ++ [(key, value)] ++ left := by
      cases old with
      | nil => exact ⟨[], List.nil_prefix, by simp [setEntry_of_not_mem value hkey]⟩
      | cons first old =>
        obtain ⟨k, v⟩ := first
        obtain ⟨hk, hprefix⟩ := List.cons_prefix_cons.mp hold
        have hk : k = key := hk
        exact ⟨old, hprefix, by simp [setEntry_append value hkey, setEntry, hk]⟩
    obtain ⟨left, hleft, hset⟩ := hset
    rw [List.foldl_cons, hset, ih _ (by rwa [happend]) hleft, happend]

namespace Table

theorem entries_foldl_set (t : Table α) (entries : List (String × α)) :
    (t.setAll entries).entries =
      entries.foldl (fun acc entry => setEntry entry.1 entry.2 acc) t.entries := by
  induction entries generalizing t with
  | nil => rfl
  | cons entry entries ih => exact ih (t.set entry.1 entry.2)

theorem setAll_eq_of_prefix {t s : Table α} (hkeys : t.keys <+: s.keys) :
    t.setAll s.entries = s := by
  have hfold := foldl_setEntry_of_prefix [] s.nodup hkeys
  exact ext ((entries_foldl_set t s.entries).trans hfold)

theorem keys_prefix_set (t : Table α) (key : String) (value : α) :
    t.keys <+: (t.set key value).keys := by
  rw [keys_set]
  split
  · exact List.prefix_refl _
  · exact List.prefix_append _ _

theorem keys_prefix_setAll (t : Table α) (entries : List (String × α)) :
    t.keys <+: (t.setAll entries).keys := by
  induction entries generalizing t with
  | nil => exact List.prefix_refl _
  | cons entry entries ih => exact (t.keys_prefix_set _ _).trans (ih _)

theorem keys_map {β : Type} (f : α → β) (t : Table α) : (t.map f).keys = t.keys := by
  rw [keys, keys, map, List.map_map]
  rfl

end Table

theorem Expression.evaluate_congr {f g : String → Option Value}
    (hfg : ∀ name, Template.numberIn f name = Template.numberIn g name) (template : String) :
    evaluate template f = evaluate template g := by
  have hnumbers : Template.numberIn f = Template.numberIn g := funext hfg
  simp only [evaluate, Template.interpolate, hnumbers]

namespace Simulation

variable {g : Graph} {options : Options} {s : Session}

/-- Also the word for what is not a number counts as zero, as that does itself. -/
theorem number_sentValue (v : Value) : (Session.sentValue v).number = v.number := by
  have hnan : (Value.text (String.ofList Numeral.nanName)).number = .zero := by decide +kernel
  cases v with
  | double x =>
    cases x with
    | nan payload => exact hnan
    | infinite negative => cases negative <;> rfl
    | finite negative place => rfl
  | _ => rfl

def Session.sentVariables (s : Session) : List (String × Value) :=
  s.vars.entries.map fun (name, v) => (name, sentValue v)

/-- An entry of what the session sends. -/
def Session.sent? (s : Session) (key : String) : Option Value :=
  match s.toValue with
  | .object entries => entries.lookup key
  | _ => none

theorem Session.sent?_variables (s : Session) :
    s.sent? "variables" = some (.object s.sentVariables) := by
  simp [sent?, toValue, lookup_cons_ite, sentVariables]

theorem numberIn_map_sentValue (vars : Variables) (name : String) :
    Template.numberIn (vars.map Session.sentValue).get? name = Template.numberIn vars.get? name := by
  rw [Template.numberIn, Template.numberIn, Table.get?_map, Option.map_map]
  have hnumber : Value.number ∘ Session.sentValue = Value.number := funext number_sentValue
  rw [hnumber]

theorem Effect.keys_prefix_applyTo (e : Effect) (vars : Variables) :
    vars.keys <+: (e.applyTo vars).keys := by
  cases e with
  | assigned name value => exact vars.keys_prefix_set name _
  | nothing | failed => exact List.prefix_refl _

theorem keys_prefix_next (options : Options) (g : Graph) (s : Session) :
    s.vars.keys <+: (next options g s).vars.keys := by
  cases hp : pending? s with
  | none => simp [next_resting hp]
  | some id =>
    cases hn : g.node? id with
    | none => simp [next_of_lost hp hn, halt]
    | some node =>
      have hkeys := (effect node s.vars).keys_prefix_applyTo s.vars
      rw [next_of_node hp hn]
      cases g.course node <;> exact hkeys

theorem keys_prefix_iterate (options : Options) (g : Graph) (s : Session) (steps : Nat) :
    s.vars.keys <+: ((next options g)^[steps] s).vars.keys := by
  induction steps with
  | zero => exact List.prefix_refl _
  | succ steps ih =>
    rw [Function.iterate_succ_apply']
    exact ih.trans (keys_prefix_next options g _)

theorem vars_start (g : Graph) (seed : List (String × Value)) :
    (start g seed).1.vars = (g.seeded []).setAll seed := by
  unfold start
  cases g.ofKind .start <;> rfl

/-- The names of the display nodes come first in every session, so a new session takes over the rest
in its order. -/
theorem start_sentVariables (hkeys : (g.seeded []).keys <+: s.vars.keys) :
    (start g s.sentVariables).1.vars = s.vars.map Session.sentValue := by
  have hmap : (g.seeded []).keys <+: (s.vars.map Session.sentValue).keys := by
    rwa [Table.keys_map]
  rw [vars_start]
  exact Table.setAll_eq_of_prefix hmap

/-- A session of the graph that is started from these values is like the one that sent them. -/
structure Session.Resumed (g : Graph) (s : Session) (values : List (String × Value)) : Prop where
  names_eq : (start g values).1.vars.keys = s.vars.keys
  number_eq : ∀ name, (start g values).1.vars.number name = s.vars.number name
  evaluate_eq : ∀ template, Expression.evaluate template (start g values).1.vars.get? =
    Expression.evaluate template s.vars.get?

theorem Session.resumed (hkeys : (g.seeded []).keys <+: s.vars.keys) :
    s.Resumed g s.sentVariables := by
  have hvars := start_sentVariables hkeys
  have hnumber := numberIn_map_sentValue s.vars
  constructor
  · rw [hvars, Table.keys_map]
  · intro name
    rw [hvars]
    exact hnumber name
  · intro template
    rw [hvars]
    exact Expression.evaluate_congr hnumber template

namespace Player

theorem played_resumed (p : Player) (hp : p.graph.Built) (seed : List (String × Value))
    (steps : Nat) : ∃ values, (p.played seed steps).sent? "variables" = some (.object values) ∧
      (p.played seed steps).Resumed p.graph values := by
  refine ⟨_, Session.sent?_variables _, Session.resumed ?_⟩
  have hstart : (p.graph.seeded []).keys <+: (start p.graph seed).1.vars.keys := by
    rw [vars_start]
    exact Table.keys_prefix_setAll _ _
  rw [played_eq hp.sound]
  exact hstart.trans (keys_prefix_iterate p.options p.graph _ steps)

/-- The tank is empty, so a share of it has no finite number. -/
def drained : Graph :=
  Graph.empty.editAll
    [.addNode ⟨"tap", .start, .empty .items, .origin⟩,
      .addNode ⟨"gauge", .display, .ofBody (.display (.ofEntries [("level", .int 0)])) "" "", .origin⟩,
      .addNode ⟨"share", .mathDivide,
        .ofBody (.math (some "1 / \x7b\x7blevel\x7d\x7d") (some "share")) "" "", .origin⟩,
      .connect "tap" "share" none]

theorem built_drained : drained.Built :=
  Graph.Built.empty.editAll (by decide)

theorem drained_resumed : drained.Built ∧
    ((ofGraph drained .unlimited).played [("noise", .double (.nan 1))] 2).vars.keys =
      ["level", "noise", "share"] ∧
    ((ofGraph drained .unlimited).played [("noise", .double (.nan 1))] 2).vars.number "share" =
      .infinite false ∧
    ∃ values, ((ofGraph drained .unlimited).played [("noise", .double (.nan 1))] 2).sent?
        "variables" = some (.object values) ∧
      ((ofGraph drained .unlimited).played [("noise", .double (.nan 1))] 2).Resumed drained
        values :=
  ⟨built_drained, by decide +kernel, by decide +kernel,
    played_resumed (ofGraph drained .unlimited) built_drained [("noise", .double (.nan 1))] 2⟩

end Player

end Simulation

end Flowsheet
