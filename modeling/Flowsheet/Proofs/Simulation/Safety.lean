import Flowsheet.Proofs.Expression.Attempt
import Flowsheet.Proofs.Simulation.Course

/-! Nothing that a player does to its session fails, whatever the session is. A step looks up the
target of an edge, which a sound graph has, and evaluates an expression, which fails by its text
alone. -/

namespace Flowsheet.Simulation

open Expression (Failure)

namespace Attempt

/-- A template that is no expression is reported, and any other failure goes on. -/
def effect (node : Node) (vars : Variables) : Except Failure Effect :=
  match template? node with
  | none => .ok .nothing
  | some template =>
    match Expression.Attempt.evaluate template vars.get? with
    | .error (.malformed fault _) => .ok (.failed fault.message)
    | .error failure => .error failure
    | .ok value =>
      match Template.target? template (resultName node) with
      | some name => .ok (.assigned name value)
      | none => .ok .nothing

/-- What could end a step before it has a session. -/
inductive Escape where
  | failure (f : Failure)
  | fault (f : Graph.Fault)

def step (options : Options) (g : Graph) (s : Session) : Except Escape Reported :=
  match pending? s with
  | none => .ok (s, [])
  | some id => match g.node? id with
    | none => .ok (halt s, [.nodeLost id])
    | some node => do
      let e ← (effect node s.vars).mapError .failure
      let failures := (e.error?.map (Notice.expressionFailed node.id)).toList
      let (next, notices) ← (follow g (executed options s node e) node).mapError .fault
      return (next, failures ++ notices)

theorem effect_eq (node : Node) (vars : Variables) :
    effect node vars = .ok (Simulation.effect node vars) := by
  unfold effect Simulation.effect
  cases template? node with
  | none => rfl
  | some template =>
    simp only [Expression.Attempt.evaluate_eq]
    cases Expression.evaluate template vars.get? with
    | error p => rfl
    | ok value =>
      simp only [Except.mapError]
      cases Template.target? template (resultName node) <;> rfl

theorem step_eq (options : Options) (g : Graph) (s : Session) :
    step options g s = (Simulation.step options g s).mapError .fault := by
  unfold step Simulation.step
  cases pending? s with
  | none => rfl
  | some id =>
    dsimp only
    cases g.node? id with
    | none => rfl
    | some node =>
      have hok : ∀ e : Effect, (Except.ok e).mapError Escape.failure = .ok e := fun _ => rfl
      simp only [effect_eq, hok, ok_bind]
      cases follow g (executed options s node (Simulation.effect node s.vars)) node <;> rfl

end Attempt

namespace Player

variable {p : Player}

theorem perform_total (hp : p.graph.Sound) {c : Command} (hc : ∀ e, c ≠ .edit e) :
    ∃ r, p.perform c = .ok r := by
  cases c with
  | start seed => exact ⟨_, rfl⟩
  | step =>
    obtain ⟨notices, hs⟩ := perform_step hp
    exact ⟨_, hs⟩
  | run steps =>
    obtain ⟨notices, hr⟩ := perform_run hp steps
    exact ⟨_, hr⟩
  | stop => exact ⟨_, rfl⟩
  | setOptions options => exact ⟨_, rfl⟩
  | edit e => exact absurd rfl (hc e)

/-- What a player can do without failing, and that the operations beneath it do not fail either. -/
structure Safe (p : Player) : Prop where
  performs : ∀ c : Command, (∀ e, c ≠ .edit e) → ∃ r, p.perform c = .ok r
  steps : ∃ r, Attempt.step p.options p.graph p.session = .ok r ∧
    step p.options p.graph p.session = .ok r
  target_found : ∀ node edge, p.graph.nextEdge? node = some edge →
    ∃ target, p.graph.findNode edge.target = .ok target
  token_read : ∀ text ts, Expression.tokens text = .ok ts → ∀ token ∈ ts, ∀ written,
    token.symbol = .number written →
      Expression.Attempt.numeral written = .ok (Expression.numberValue written)
  variable_read : ∀ v : Value, Expression.Attempt.number v = .ok v.number
  divides : ∀ x y : Double, Expression.Attempt.divide x y = .ok (x.div y)
  evaluates : ∀ template get?, Expression.Attempt.evaluate template get? =
    (Expression.evaluate template get?).mapError fun p => .malformed p.1 p.2
  applies : ∀ node vars, Attempt.effect node vars = .ok (effect node vars)

theorem safe (p : Player) (hp : p.graph.Built) : p.Safe where
  performs _ hc := perform_total hp.sound hc
  steps := by
    obtain ⟨notices, hs⟩ := step_eq hp.sound p.options p.session
    rw [Attempt.step_eq, hs]
    exact ⟨_, rfl, rfl⟩
  target_found _ _ he := by
    obtain ⟨target, ht⟩ := hp.sound.exists_target he
    exact ⟨target, Graph.findNode_of_node? ht⟩
  token_read _ _ hts _ ht _ hw := Expression.Attempt.numeral_of_mem_tokens hts ht hw
  variable_read := Expression.Attempt.number_eq
  divides := Expression.Attempt.divide_eq
  evaluates := Expression.Attempt.evaluate_eq
  applies := Attempt.effect_eq

/-- A share of a total that may be anything. -/
def shared (total : Value) : Player where
  graph := Graph.empty.editAll
    [.addNode ⟨"share", .mathDivide,
      .ofBody (.math (some "1 / \x7b\x7btotal\x7d\x7d") (some "part")) "" "", .origin⟩]
  options := .unlimited
  session := { Session.idle with
    phase := .running, activeNode := some "share", vars := .ofEntries [("total", total)] }

theorem shared_safe : (shared (.text "-1e999")).graph.Built ∧ (shared (.text "-1e999")).Safe := by
  have hb : (shared (.text "-1e999")).graph.Built := by
    refine Graph.Built.empty.editAll fun e he => ?_
    rw [List.mem_singleton.mp he]
    exact ⟨some (.ofBody (.math (some "1 / \x7b\x7btotal\x7d\x7d") (some "part")) "" ""), rfl⟩
  exact ⟨hb, safe _ hb⟩

end Player

end Flowsheet.Simulation
