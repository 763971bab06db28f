import Flowsheet.Graph.Basic
import Flowsheet.Value.Display
import Flowsheet.Value.Number

/-! The variables of a simulation. A graph gives the values of its display nodes, in node order, and
a seed is set over them. -/

namespace Flowsheet

abbrev Variables := Table Value

namespace Variables

/-- The number of a variable; a missing one counts as zero. -/
def number (vars : Variables) (name : String) : Double :=
  ((vars.get? name).map Value.number).getD .zero

/-- The names and values, if none of the numbers is too long to be written. -/
def text? (vars : Variables) : Option String :=
  (Value.object vars.entries).plain?.map fun entries => s!"VariableStore({entries})"

end Variables

def Node.displayed (node : Node) : List (String × Value) :=
  match node.payload.body with
  | .display values => values.entries
  | _ => []

/-- The values that a run over the graph begins with. -/
def Graph.seeded (g : Graph) (seed : List (String × Value)) : Variables :=
  (Table.ofEntries (g.nodes.flatMap Node.displayed)).setAll seed

end Flowsheet
