import Flowsheet.Graph.Edit
import Flowsheet.Simulation.Step

/-! A player keeps the session of one graph, which may be edited between the steps. -/

namespace Flowsheet.Simulation

structure Player where
  graph : Graph
  options : Options
  session : Session

inductive Command where
  | start (seed : List (String × Value))
  | step
  | run (steps : Nat)
  | stop
  | setOptions (options : Options)
  | edit (e : Graph.Edit)

namespace Player

def ofGraph (g : Graph) (options : Options) : Player := ⟨g, options, .idle⟩

def report (p : Player) (r : Reported) : Player × List Notice :=
  ({ p with session := r.1 }, r.2)

def perform (p : Player) : Command → Except Graph.Fault (Player × List Notice)
  | .start seed => .ok (p.report (start p.graph seed))
  | .step => (Simulation.step p.options p.graph p.session).map p.report
  | .run steps => (Simulation.run p.options p.graph p.session steps).map p.report
  | .stop => .ok ({ p with session := .idle }, [])
  | .setOptions options => .ok ({ p with options := options }, [])
  | .edit e => (p.graph.edit e).map fun g => ({ p with graph := g }, [])

/-- The player after a command that was tried. -/
def tryCommand (p : Player) (c : Command) : Player :=
  match p.perform c with
  | .ok (q, _) => q
  | .error _ => p

def playAll (p : Player) (commands : List Command) : Player :=
  commands.foldl tryCommand p

end Player

end Flowsheet.Simulation
