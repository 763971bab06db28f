import Flowsheet.Graph.Basic

/-! Edits as data, so that the history of a graph is a list of them. A failing edit changes nothing,
and the history goes on after it. -/

namespace Flowsheet.Graph

inductive Edit where
  | addNode (node : Node)
  | removeNode (id : String)
  | updatePayload (id : String) (payload : Payload)
  | moveNode (id : String) (position : Position)
  | addEdge (edge : Edge) (check : Bool)
  | connect (source target : String) (handle : Option String)
  | removeEdge (id : String)
  /-- The history goes on with a copy. -/
  | copy

def edit (g : Graph) : Edit → Except Fault Graph
  | .addNode node => g.addNode node
  | .removeNode id => .ok (g.removeNode id)
  | .updatePayload id payload => (g.updatePayload id payload).map Prod.fst
  | .moveNode id position => (g.moveNode id position).map Prod.fst
  | .addEdge edge check => g.addEdge edge check
  | .connect source target handle => (g.connect source target handle).map Prod.fst
  | .removeEdge id => .ok (g.removeEdge id)
  | .copy => g.copy

/-- The graph after an edit that was tried. -/
def tryEdit (g : Graph) (e : Edit) : Graph :=
  match g.edit e with
  | .ok h => h
  | .error _ => g

def editAll (g : Graph) (edits : List Edit) : Graph :=
  edits.foldl tryEdit g

theorem tryEdit_of_error {g : Graph} {e : Edit} {fault : Fault} (h : g.edit e = .error fault) :
    g.tryEdit e = g := by
  simp [tryEdit, h]

theorem tryEdit_of_ok {g h : Graph} {e : Edit} (hh : g.edit e = .ok h) : g.tryEdit e = h := by
  simp [tryEdit, hh]

end Flowsheet.Graph
