import Flowsheet.Studio.Basic

/-! What can be asked of a studio, as data, so that the history of a studio is a list of operations.
The history goes on after one that fails, with what it changed before it failed. -/

namespace Flowsheet

open Simulation

namespace Studio

inductive Operation where
  | addProduct (name unit : String) (id : Option String) (isInput isOutput : Bool)
  | addTask (name : String) (id : Option String) (description : String) (rate : Amount)
  | addProcess (name description : String) (id : Option String)
  | graph (process : String)
  | document (process : String)
  | session (process : String)
  | addNode (process : String) (kind : Kind) (payload : Option Payload) (id : Option String)
      (position : Position)
  | connect (process source target : String) (handle : Option String)
  | updatePayload (process id : String) (payload : Payload)
  | removeNode (process id : String)
  | replaceWorkflow (process : String) (document : Value)
  | save (process : String)
  | start (process : String) (seed : List (String × Value))
  | step (process : String)
  | stop (process : String)
  | setHistoryLimit (limit : Option Int)

/-- The process that the operation is about, if it is about one. -/
def Operation.process? : Operation → Option String
  | .addProduct .. | .addTask .. | .addProcess .. | .setHistoryLimit _ => none
  | .graph process | .document process | .session process | .addNode process ..
  | .connect process .. | .updatePayload process .. | .removeNode process _
  | .replaceWorkflow process _ | .save process | .start process _ | .step process
  | .stop process => some process

inductive Answer where
  | product (product : Product)
  | task (task : ShopTask)
  | process (process : Workflow)
  | graph (g : Graph)
  | document (document : Value)
  | session (session : Session)
  | node (node : Node)
  | edge (edge : Edge)
  | options (options : Options)
  | done

def perform : Operation → Action Answer
  | .addProduct name unit id isInput isOutput =>
    return .product (← addProduct name unit id isInput isOutput)
  | .addTask name id description rate => return .task (← addTask name id description rate)
  | .addProcess name description id => return .process (← addProcess name description id)
  | .graph process => return .graph (← graph process)
  | .document process => return .document (← document process)
  | .session process => return .session ((← get).session process)
  | .addNode process kind payload id position =>
    return .node (← addNode process kind payload id position)
  | .connect process source target handle => return .edge (← connect process source target handle)
  | .updatePayload process id payload => return .node (← updatePayload process id payload)
  | .removeNode process id => do
    removeNode process id
    return .done
  | .replaceWorkflow process document => return .graph (← replaceWorkflow process document)
  | .save process => return .document (← save process)
  | .start process seed => return .session (← start process seed)
  | .step process => return .session (← step process)
  | .stop process => return .session (← stop process)
  | .setHistoryLimit limit => return .options (← setHistoryLimit limit)

/-- What an action answers, and the studio that it leaves. -/
def outcome {α : Type} (action : Action α) (s : Studio) : Except Fault α × Studio :=
  action.run s

/-- The studio after an operation that was tried. -/
def after (s : Studio) (op : Operation) : Studio :=
  (outcome (perform op) s).2

def afterAll (s : Studio) (ops : List Operation) : Studio :=
  ops.foldl after s

end Studio

end Flowsheet
