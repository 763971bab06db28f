import Flowsheet.Proofs.Simulation.Snapshot
import Flowsheet.Value.Parts

/-! What a session sends. A number that is not finite is sent as its word, but not one inside a list
or an object, and these come from the seed or from the display nodes: no step computes one. -/

namespace Flowsheet

namespace Value

/-- Lists and objects, which hold other values. -/
def isNested : Value → Bool
  | .list _ | .object _ => true
  | _ => false

end Value

namespace Table

variable {α : Type} {v value : α} {key : String} {entries : List (String × α)}

theorem mem_values_set {t : Table α} (hv : v ∈ (t.set key value).values) :
    v = value ∨ v ∈ t.values := by
  obtain ⟨entry, he, rfl⟩ := List.mem_map.mp hv
  rcases mem_setEntry he with rfl | he
  · exact .inl rfl
  · exact .inr (List.mem_map_of_mem he)

theorem mem_entries_setAll {t : Table α} {entry : String × α}
    (he : entry ∈ (t.setAll entries).entries) : entry ∈ entries ∨ entry ∈ t.entries := by
  induction entries generalizing t with
  | nil => exact .inr he
  | cons first rest ih =>
    rcases ih he with he | he
    · exact .inl (List.mem_cons_of_mem _ he)
    · rcases mem_setEntry he with rfl | he
      · exact .inl List.mem_cons_self
      · exact .inr he

theorem mem_values_setAll {t : Table α} (hv : v ∈ (t.setAll entries).values) :
    v ∈ entries.map Prod.snd ∨ v ∈ t.values := by
  obtain ⟨entry, he, rfl⟩ := List.mem_map.mp hv
  exact (mem_entries_setAll he).imp List.mem_map_of_mem List.mem_map_of_mem

end Table

namespace Simulation

variable {g : Graph} {options : Options} {s t : Session} {values : List Value}

theorem isFinite_sentValue_iff (v : Value) :
    (Session.sentValue v).isFinite = true ↔ (v.isNested = true → v.isFinite = true) := by
  cases v with
  | list items => simp [Session.sentValue, Value.isNested]
  | object entries => simp [Session.sentValue, Value.isNested]
  | double x =>
    cases x <;> simp [Session.sentValue, Value.isNested, Value.isFinite, Value.throughout,
      Double.isFinite]
  | _ => simp [Session.sentValue, Value.isNested, Value.isFinite, Value.throughout]

theorem isFinite_textOrNull (s : Option String) : (Session.textOrNull s).isFinite = true := by
  cases s <;> rfl

/-- Only the lists and the objects among the variables can be in the way. -/
theorem Session.isFinite_toValue_iff (s : Session) :
    s.toValue.isFinite = true ↔ ∀ v ∈ s.vars.values, v.isNested = true → v.isFinite = true := by
  have hhistory : (Value.list (s.history.map .text)).isFinite = true :=
    Value.isFinite_list_iff.mpr (List.forall_mem_map.mpr fun _ _ => rfl)
  have hvars : (Value.object s.sentVariables).isFinite = true ↔
      ∀ v ∈ s.vars.values, v.isNested = true → v.isFinite = true := by
    simp only [sentVariables, Value.isFinite_object_iff, List.forall_mem_map,
      isFinite_sentValue_iff, Table.values]
  have htext (t : String) : (Value.text t).isFinite = true := rfl
  have hbool (b : Bool) : (Value.bool b).isFinite = true := rfl
  have hint (n : Int) : (Value.int n).isFinite = true := rfl
  rw [← hvars, toValue, Value.isFinite_object_iff]
  simp [sentVariables, htext, hbool, hint, isFinite_textOrNull, hhistory]

/-- Each variable was given to the session or was computed, and what is computed is a number. -/
def Session.From (given : List Value) (s : Session) : Prop :=
  ∀ v ∈ s.vars.values, v ∈ given ∨ ∃ x, v = .double x

theorem Session.from_idle (values : List Value) : Session.idle.From values :=
  List.forall_mem_nil _

theorem vars_of_exit (hx : Exit s t) : ∃ e : Effect, t.vars = e.applyTo s.vars := by
  cases hx with
  | resting | nodeLost => exact ⟨.nothing, rfl⟩
  | deadEnd _ _ _ e | completed _ _ _ e | advanced _ _ _ e => exact ⟨e, rfl⟩

theorem Session.From.exit (hs : s.From values) (hx : Exit s t) : t.From values := by
  obtain ⟨e, he⟩ := vars_of_exit hx
  intro v hv
  rw [he] at hv
  cases e with
  | assigned name x =>
    rcases Table.mem_values_set hv with rfl | hv
    · exact .inr ⟨x, rfl⟩
    · exact hs v hv
  | nothing | failed => exact hs v hv

/-- The values that a start gives to its session. -/
def startValues (g : Graph) (seed : List (String × Value)) : List Value :=
  seed.map Prod.snd ++ (g.nodes.flatMap Node.displayed).map Prod.snd

theorem Session.from_start (g : Graph) (seed : List (String × Value)) :
    (start g seed).1.From (startValues g seed) := by
  intro v hv
  rw [vars_start] at hv
  refine .inl (List.mem_append.mpr ?_)
  rcases Table.mem_values_setAll hv with hv | hv
  · exact .inl hv
  · have hdisplayed : v ∈ (Table.empty.setAll (g.nodes.flatMap Node.displayed)).values := hv
    exact .inr ((Table.mem_values_setAll hdisplayed).resolve_right List.not_mem_nil)

namespace Player

variable {p : Player}

/-- What the session was given when it was started, after one more command. -/
def givenAfter (p : Player) (values : List Value) : Command → List Value
  | .start seed => startValues p.graph seed
  | .stop => []
  | _ => values

def given (p : Player) (values : List Value) : List Command → List Value
  | [] => values
  | c :: cs => (p.tryCommand c).given (p.givenAfter values c) cs

theorem from_tryCommand (hp : p.session.From values) (c : Command) :
    (p.tryCommand c).session.From (p.givenAfter values c) := by
  cases c with
  | start seed => exact Session.from_start p.graph seed
  | stop => exact Session.from_idle _
  | step | run | setOptions | edit =>
    exact tryCommand_keeps (fun hx hs => hs.exit (exit_of_step hx)) rfl hp

theorem from_playAll (hp : p.session.From values) (commands : List Command) :
    (p.playAll commands).session.From (p.given values commands) := by
  induction commands generalizing p values with
  | nil => exact hp
  | cons c commands ih => exact ih (from_tryCommand hp c)

/-- What a player sends is finite at every depth, unless a list or an object is not that its session
was given at its start. -/
structure SendsFinite (p : Player) (given : List Value) : Prop where
  finite_iff : p.session.toValue.isFinite = true ↔
    ∀ v ∈ p.session.vars.values, v.isNested = true → v.isFinite = true
  nested_given : ∀ v ∈ p.session.vars.values, v.isNested = true → v ∈ given
  finite_of_given : (∀ v ∈ given, v.isNested = true → v.isFinite = true) →
    p.session.toValue.isFinite = true

theorem sendsFinite_playAll (g : Graph) (options : Options) (commands : List Command) :
    ((ofGraph g options).playAll commands).SendsFinite
      ((ofGraph g options).given [] commands) := by
  have hfrom : ((ofGraph g options).playAll commands).session.From
      ((ofGraph g options).given [] commands) := from_playAll (Session.from_idle []) commands
  have hnested : ∀ v ∈ ((ofGraph g options).playAll commands).session.vars.values,
      v.isNested = true → v ∈ (ofGraph g options).given [] commands := by
    intro v hv hn
    refine (hfrom v hv).resolve_right ?_
    rintro ⟨x, rfl⟩
    cases hn
  exact ⟨Session.isFinite_toValue_iff _, hnested, fun hgiven =>
    (Session.isFinite_toValue_iff _).mpr fun v hv hn => hgiven v (hnested v hv hn) hn⟩

/-- A press and nothing else. -/
def pressDocument : Value :=
  .object [("nodes", .list [.object [("id", .text "press"), ("type", .text "start")]]),
    ("edges", .list [])]

/-- The seed has a list with an infinite number in it, which is sent as it is. -/
theorem infinite_item_sent : ∃ g, Document.loadGraph pressDocument = .ok g ∧
    ((ofGraph g .unlimited).playAll
      [.start [("lots", .list [.double (.infinite false)])]]).session.toValue.isFinite = false :=
  ⟨_, rfl, rfl⟩

end Player

end Simulation

end Flowsheet
