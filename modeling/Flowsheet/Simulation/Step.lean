import Flowsheet.Expression.Basic
import Flowsheet.Simulation.Session

/-! The steps of a simulation. Each one executes the active node and moves along one edge, so that a
graph with cycles is only walked as far as it is asked to be. -/

namespace Flowsheet

/-- The handle of the first branch of a decision. -/
def firstBranch : String := "branch-0"

/-- The edge that a run follows from a node: a decision takes its first branch if an edge leaves
there, and the oldest edge is taken in every other case. -/
def Graph.nextEdge? (g : Graph) (node : Node) : Option Edge :=
  let edges := g.outgoing node.id
  let branch := if node.kind.isBranching then edges.find? (·.handle = some firstBranch) else none
  branch.or edges.head?

namespace Simulation

/-- What the execution of a node does to the variables. -/
inductive Effect where
  | nothing
  | assigned (name : String) (value : Double)
  | failed (message : String)
deriving DecidableEq, Repr

/-- The variables after the effect. -/
def Effect.applyTo (vars : Variables) : Effect → Variables
  | .assigned name value => vars.set name (.double value)
  | _ => vars

def Effect.error? : Effect → Option String
  | .failed message => some message
  | _ => none

/-- The template of a math node, unless it is empty. -/
def template? (node : Node) : Option String :=
  match node.kind.isMath, node.payload.body with
  | true, .math expression _ => expression.filter (· ≠ "")
  | _, _ => none

def resultName (node : Node) : Option String :=
  match node.payload.body with
  | .math _ name => name
  | _ => none

def effect (node : Node) (vars : Variables) : Effect :=
  match template? node with
  | none => .nothing
  | some template =>
    match Expression.evaluate template vars.get? with
    | .error (fault, _) => .failed fault.message
    | .ok value =>
      match Template.target? template (resultName node) with
      | some name => .assigned name value
      | none => .nothing

/-- A new session and the notices that came with it. -/
abbrev Reported := Session × List Notice

def start (g : Graph) (seed : List (String × Value)) : Reported :=
  let fresh := { Session.idle with vars := g.seeded seed }
  match g.ofKind .start with
  | [] => ({ fresh with phase := .halted }, [.noStart])
  | first :: rest =>
    let several := if rest.isEmpty then [] else [.severalStarts (rest.length + 1) first.id]
    ({ fresh with phase := .running, activeNode := some first.id },
      several ++ [.started first.id])

/-- The session after the node has been executed and before an edge is followed. -/
def executed (options : Options) (s : Session) (node : Node) (e : Effect) : Session :=
  { s with
    stepCount := s.stepCount + 1
    history := options.trim (s.history ++ [node.id])
    vars := e.applyTo s.vars
    lastError := e.error? }

def halt (s : Session) : Session :=
  { s with phase := .halted, activeNode := none, activeEdge := none }

def follow (g : Graph) (s : Session) (node : Node) : Except Graph.Fault Reported :=
  match g.nextEdge? node with
  | none => .ok (halt s, [.halted node.id])
  | some edge => do
    let target ← g.findNode edge.target
    if target.kind = .finish then
      return ({ s with
        phase := .completed, activeNode := none, activeEdge := some edge.id,
        endNode := some target.id }, [.completed target.id])
    return ({ s with activeNode := some target.id, activeEdge := some edge.id }, [])

/-- The node that the next step executes. -/
def pending? (s : Session) : Option String :=
  if s.phase = .running then s.activeNode else none

/-- One step. A session with no node to execute comes back as it is. -/
def step (options : Options) (g : Graph) (s : Session) : Except Graph.Fault Reported :=
  match pending? s with
  | none => .ok (s, [])
  | some id => match g.node? id with
    | none => .ok (halt s, [.nodeLost id])
    | some node => do
      let e := effect node s.vars
      let failures := (e.error?.map (Notice.expressionFailed node.id)).toList
      let (next, notices) ← follow g (executed options s node e) node
      return (next, failures ++ notices)

/-- Steps until the session no longer runs, and no more of them than given. -/
def run (options : Options) (g : Graph) (s : Session) : Nat → Except Graph.Fault Reported
  | 0 => .ok (s, [])
  | n + 1 =>
    if s.phase = .running then do
      let (next, notices) ← step options g s
      let (last, later) ← run options g next n
      return (last, notices ++ later)
    else .ok (s, [])

end Simulation

end Flowsheet
