/-! The closed set of node kinds, and the shape of payload that each kind carries. -/

namespace Flowsheet

inductive Shape where
  | basic
  | items
  | process
  | decision
  | math
  | display
  | piecework
deriving DecidableEq, Repr

def Shape.name : Shape → String
  | .basic => "BasicPayload"
  | .items => "ItemsPayload"
  | .process => "ProcessPayload"
  | .decision => "DecisionPayload"
  | .math => "MathPayload"
  | .display => "DisplayPayload"
  | .piecework => "PieceworkPayload"

inductive Kind where
  | start
  | finish
  | process
  | decision
  | conditional
  | trigger
  | action
  | delay
  | notification
  | aiAgent
  | display
  | mathAdd
  | mathSubtract
  | mathDivide
  | mathMultiply
  | mathSumAll
  | apiCurrency
  | inventoryIn
  | inventoryOut
  | piecework
deriving DecidableEq, Repr

namespace Kind

def all : List Kind :=
  [.start, .finish, .process, .decision, .conditional, .trigger, .action, .delay, .notification,
   .aiAgent, .display, .mathAdd, .mathSubtract, .mathDivide, .mathMultiply, .mathSumAll,
   .apiCurrency, .inventoryIn, .inventoryOut, .piecework]

/-- The word that stands for the kind in documents. -/
def tag : Kind → String
  | .start => "start"
  | .finish => "end"
  | .process => "process"
  | .decision => "decision"
  | .conditional => "conditional"
  | .trigger => "trigger"
  | .action => "action"
  | .delay => "delay"
  | .notification => "notification"
  | .aiAgent => "ai_agent"
  | .display => "display"
  | .mathAdd => "math_add"
  | .mathSubtract => "math_subtract"
  | .mathDivide => "math_divide"
  | .mathMultiply => "math_multiply"
  | .mathSumAll => "math_sum_all"
  | .apiCurrency => "api_currency"
  | .inventoryIn => "inventory_in"
  | .inventoryOut => "inventory_out"
  | .piecework => "piecework"

def ofTag? (tag : String) : Option Kind :=
  all.find? (·.tag == tag)

def shape : Kind → Shape
  | .start | .finish | .inventoryIn | .inventoryOut => .items
  | .process => .process
  | .decision | .conditional => .decision
  | .display => .display
  | .mathAdd | .mathSubtract | .mathDivide | .mathMultiply | .mathSumAll => .math
  | .piecework => .piecework
  | .trigger | .action | .delay | .notification | .aiAgent | .apiCurrency => .basic

def isMath : Kind → Bool
  | .mathAdd | .mathSubtract | .mathDivide | .mathMultiply | .mathSumAll => true
  | _ => false

def isBranching : Kind → Bool
  | .decision | .conditional => true
  | _ => false

theorem ofTag?_tag (k : Kind) : ofTag? k.tag = some k := by
  cases k <;> decide

end Kind

end Flowsheet
