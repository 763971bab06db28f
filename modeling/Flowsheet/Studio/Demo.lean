import Flowsheet.Studio.Outline

/-! The process that a new studio shows: a coconut line from purchase to storage. -/

namespace Flowsheet.Studio

open Double (ofInt)

def demoProcess : String := "coco-processing"

def demoParent : String := "coco-parent"

/-- Identifier, name and unit of each product. -/
def demoProducts : List (String × String × String) :=
  [(demoParent, "Coco entero", "u"), ("coco-sin-estopa", "Coco sin estopa", "u"),
   ("estopa", "Estopa", "m3"), ("almendra-coco", "Almendra de coco", "u"),
   ("agua-coco", "Agua de coco", "L"), ("pulpa-coco", "Pulpa de coco", "Kg")]

def fixedOutput (product : String) : Subproduct :=
  ⟨product, .fixed (ofInt 1), ""⟩

def variableOutput (product unit : String) : Subproduct :=
  ⟨product, .variable, unit⟩

def demoNodes : List NodeOutline :=
  [⟨"start-1", .start, "Compra de Coco", "Materia Prima Inicial",
      .items [⟨demoParent, some (ofInt 1)⟩], -100, 200⟩,
   ⟨"display-1", .display, "Lote", "",
      .display (.ofEntries [("cocos", .int 100), ("merma", .int 0)]), -100, 420⟩,
   ⟨"destopado-1", .process, "Destopado", "Remoción de Estopa",
      .process [⟨demoParent, none⟩] [fixedOutput "coco-sin-estopa", variableOutput "estopa" "m3"]
        (some (hundredths 40)), 250, 200⟩,
   ⟨"merma-1", .mathSubtract, "Descontar merma", "",
      .math (some (placeholder "cocos" ++ " - " ++ placeholder "merma")) (some "cocos_utiles"),
      425, 200⟩,
   ⟨"decision-1", .decision, "Control Calidad", "Validación de Lote",
      .decision ["Lote Aprobado", "Rechazo/Desecho"], 600, 200⟩,
   ⟨"deshuesado-1", .process, "Deshuesado", "Extracción de Almendra",
      .process [] [fixedOutput "almendra-coco", variableOutput "agua-coco" "L"]
        (some (hundredths 35)), 950, 100⟩,
   ⟨"pelado-1", .process, "Pelado de Pulpa", "Procesamiento Final",
      .process [] [variableOutput "pulpa-coco" "Kg"] (some (ofInt 2)), 1300, 100⟩,
   ⟨"end-1", .finish, "Producto Terminado", "Almacén Central", .items [], 1650, 200⟩]

def demoEdges : List EdgeOutline :=
  [⟨"start-1", "destopado-1", some "item-0"⟩, ⟨"destopado-1", "merma-1", some "sub-0"⟩,
   ⟨"merma-1", "decision-1", none⟩, ⟨"decision-1", "deshuesado-1", some "branch-0"⟩,
   ⟨"deshuesado-1", "pelado-1", some "sub-0"⟩, ⟨"pelado-1", "end-1", some "sub-0"⟩]

/-- Sets the line up, unless it is there. Products that are there stay as they are. -/
def ensureDemo : Action Unit := do
  if (← get).processes.contains demoProcess then return
  for (id, name, unit) in demoProducts do
    if !(← get).products.contains id then
      let _ ← addProduct name unit (some id) (id == demoParent) (id != demoParent)
  let _ ← addProcess "Procesamiento de Coco"
    "Destopado, control de calidad, deshuesado y pelado" (some demoProcess)
  draw demoProcess ⟨demoNodes, demoEdges⟩
  let _ ← save demoProcess

end Flowsheet.Studio
