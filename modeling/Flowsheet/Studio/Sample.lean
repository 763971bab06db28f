import Flowsheet.Studio.Outline
import Flowsheet.Value.Layout

/-! A sample run. It estimates the pulp of a batch of coconuts, and tells each step and what is
saved in the end. -/

namespace Flowsheet.Studio

open Simulation (Session)

def sampleNodes : List NodeOutline :=
  [⟨"recepcion", .start, "Recepción", "", .items [⟨"coco", none⟩], 0, 0⟩,
   ⟨"lote", .display, "Lote", "",
      .display (.ofEntries [("coco", .int 10), ("kg_por_coco", .double (hundredths 45))]), 0, 0⟩,
   ⟨"pulpa", .mathMultiply, "Pulpa estimada", "",
      .math (some (placeholder "coco" ++ " * " ++ placeholder "kg_por_coco")) (some "pulpa"), 0, 0⟩,
   ⟨"control", .decision, "Control", "", .decision ["Aprobado", "Rechazo"], 0, 0⟩,
   ⟨"merma", .mathSubtract, "Merma", "", .math (some (placeholder "coco" ++ " - 1")) none, 0, 0⟩,
   ⟨"almacen", .finish, "Almacén", "", .items [], 0, 0⟩]

def sampleEdges : List EdgeOutline :=
  [⟨"recepcion", "pulpa", some "item-0"⟩, ⟨"pulpa", "control", none⟩,
   ⟨"control", "almacen", some "branch-1"⟩, ⟨"control", "merma", some "branch-0"⟩,
   ⟨"merma", "almacen", none⟩]

def shownId (id : Option String) : String :=
  id.getD "None"

/-- Steps until the session has come to its end, and no more of them than given. The lines tell the
node that each step executes. -/
def tellSteps (process : String) (session : Session) : Nat → Action (List String × Session)
  | 0 => return ([], session)
  | n + 1 => do
    if session.isTerminal || !session.isRunning then return ([], session)
    let line := s!" - Paso {session.stepCount + 1}: {shownId session.activeNode}"
    let (lines, last) ← tellSteps process (← step process) n
    return (line :: lines, last)

/-- The lines of the run. Along a graph without cycles there are no more steps than nodes. -/
def sampleLines : Action (List String) := do
  let _ ← addProduct "Coco entero" "u" (some "coco") false false
  let process ← addProcess "Rendimiento de pulpa" "" none
  draw process.id ⟨sampleNodes, sampleEdges⟩
  let (steps, last) ← tellSteps process.id (← start process.id []) sampleNodes.length
  let final := Value.object last.vars.entries
  let saved ← save process.id
  return [s!"Simulación de {process.name}"] ++ steps ++
    ["", s!"Estado final: {last.phase.tag} (fin en {shownId last.endNode})",
      "Recorrido: " ++ " -> ".intercalate last.history, final.layout,
      "", "Documento guardado", saved.layout]

/-- The text of the run in a new studio. -/
def sampleText : String :=
  match (sampleLines.run .empty : Except Fault (List String) × Studio).1 with
  | .ok lines => "\n".intercalate lines
  | .error fault => fault.message

end Flowsheet.Studio
