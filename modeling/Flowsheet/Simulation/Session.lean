import Flowsheet.Numeral
import Flowsheet.Simulation.Variables

/-! Sessions, the states of a simulation. A session is a value: a step makes a new one. -/

namespace Flowsheet.Simulation

inductive Phase where
  | idle
  | running
  | halted
  | completed
deriving DecidableEq, Repr

namespace Phase

def tag : Phase → String
  | .idle => "idle"
  | .running => "running"
  | .halted => "halted"
  | .completed => "completed"

end Phase

structure Session where
  phase : Phase
  activeNode : Option String
  activeEdge : Option String
  stepCount : Int
  history : List String
  vars : Variables
  endNode : Option String
  lastError : Option String

/-- The session of a simulation that has not been started, or has been stopped. -/
def Session.idle : Session := ⟨.idle, none, none, 0, [], .empty, none, none⟩

namespace Session

/-- A session that came to an end still runs until it is stopped. -/
def isRunning (s : Session) : Bool :=
  s.phase != .idle

def isTerminal (s : Session) : Bool :=
  s.phase == .halted || s.phase == .completed

def isCompleted (s : Session) : Bool :=
  s.phase == .completed

/-- A variable as it is sent: a number that is not finite is sent as its word. -/
def sentValue : Value → Value
  | .double (.finite negative place) => .double (.finite negative place)
  | .double x => .text (String.ofList (Numeral.render x))
  | v => v

def textOrNull (s : Option String) : Value :=
  (s.map Value.text).getD .null

def toValue (s : Session) : Value :=
  .object [
    ("state", .text s.phase.tag),
    ("isRunning", .bool s.isRunning),
    ("activeNodeId", textOrNull s.activeNode),
    ("activeEdgeId", textOrNull s.activeEdge),
    ("stepCount", .int s.stepCount),
    ("visitedHistory", .list (s.history.map .text)),
    ("variables", .object (s.vars.entries.map fun (name, v) => (name, sentValue v))),
    ("endNodeId", textOrNull s.endNode),
    ("completed", .bool s.isCompleted),
    ("lastError", textOrNull s.lastError)]

end Session

/-- How much of the history is kept: all of it, or the latest part. -/
structure Options where
  historyLimit : Option Nat
  limit_pos : ∀ n ∈ historyLimit, 0 < n

namespace Options

def unlimited : Options := ⟨none, by simp⟩

instance : Inhabited Options := ⟨unlimited⟩

/-- The options with the limit asked for, unless it is no positive number. -/
def ofLimit? : Option Int → Option Options
  | none => some unlimited
  | some n =>
    if h : 0 < n then some ⟨some n.toNat, by simp; omega⟩ else none

def badLimitMessage : String := "history_limit must be a positive integer or None"

def trim (o : Options) (history : List String) : List String :=
  match o.historyLimit with
  | some n => history.drop (history.length - n)
  | none => history

end Options

/-- What a run reports while it goes on. -/
inductive Notice where
  | severalStarts (count : Nat) (first : String)
  | noStart
  | started (node : String)
  | expressionFailed (node message : String)
  | nodeLost (node : String)
  | halted (node : String)
  | completed (node : String)
deriving DecidableEq, Repr

namespace Notice

def isWarning : Notice → Bool
  | .severalStarts .. | .expressionFailed .. | .nodeLost _ => true
  | _ => false

def text : Notice → String
  | .severalStarts count first => s!"Graph has {count} start nodes, simulating from {first}"
  | .noStart => "No start node in graph, simulation halted immediately"
  | .started node => s!"Simulation started at node {node}"
  | .expressionFailed node message => s!"Expression error on node {node}: {message}"
  | .nodeLost node => s!"Active node {node} no longer exists, simulation halted"
  | .halted node => s!"Simulation halted at node {node}: no outgoing edge"
  | .completed node => s!"Simulation completed at end node {node}"

end Notice

end Flowsheet.Simulation
