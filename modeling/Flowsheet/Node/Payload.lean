import Flowsheet.Double.Basic
import Flowsheet.Node.Kind
import Flowsheet.Table
import Flowsheet.Value.Basic

/-! What a node carries: texts that every node has, entries that are kept without being understood,
and a body of the shape that belongs to its kind. -/

namespace Flowsheet

structure Item where
  product : String
  yieldRatio : Option Double
deriving DecidableEq, Repr

/-- How much of a subproduct comes out: a fixed share of the input, or what is weighed. -/
inductive Quantity where
  | fixed (ratio : Double)
  | variable
deriving DecidableEq, Repr

structure Subproduct where
  product : String
  quantity : Quantity
  unit : String
deriving DecidableEq, Repr

/-- A row that gives both a ratio and the variable mark, or neither. -/
inductive Subproduct.Fault where
  | overdetermined
  | undetermined
deriving DecidableEq, Repr

def Subproduct.Fault.message : Subproduct.Fault → String
  | .overdetermined => "A variable subproduct cannot also declare a fixed ratio"
  | .undetermined => "A subproduct needs either a fixed ratio or the variable flag"

def Subproduct.make (product : String) (ratio : Option Double) (isVariable : Bool)
    (unit : String) : Except Subproduct.Fault Subproduct :=
  match ratio, isVariable with
  | some _, true => .error .overdetermined
  | none, false => .error .undetermined
  | some r, false => .ok ⟨product, .fixed r, unit⟩
  | none, true => .ok ⟨product, .variable, unit⟩

def Subproduct.isVariable (s : Subproduct) : Bool :=
  s.quantity == .variable

def Subproduct.ratio? (s : Subproduct) : Option Double :=
  match s.quantity with
  | .fixed r => some r
  | .variable => none

inductive Body where
  | basic
  | items (items : List Item)
  | process (items : List Item) (subproducts : List Subproduct) (pieceworkRate : Option Double)
  | decision (branches : List String)
  | math (expression resultName : Option String)
  | display (values : Table Value)
  | piecework (task : Option String) (rate : Option Double)

def Body.shape : Body → Shape
  | .basic => .basic
  | .items .. => .items
  | .process .. => .process
  | .decision .. => .decision
  | .math .. => .math
  | .display .. => .display
  | .piecework .. => .piecework

def Shape.emptyBody : Shape → Body
  | .basic => .basic
  | .items => .items []
  | .process => .process [] [] none
  | .decision => .decision []
  | .math => .math none none
  | .display => .display .empty
  | .piecework => .piecework none none

theorem Shape.shape_emptyBody (s : Shape) : s.emptyBody.shape = s := by
  cases s <;> rfl

structure Payload where
  label : String
  subLabel : String
  description : String
  location : String
  extra : Table Value
  body : Body

/-- The rows of a node that an edge can leave from. -/
inductive RowKind where
  | branch
  | item
  | sub
deriving DecidableEq, Repr

namespace RowKind

def all : List RowKind := [.branch, .item, .sub]

def tag : RowKind → String
  | .branch => "branch"
  | .item => "item"
  | .sub => "sub"

end RowKind

namespace Payload

def shape (p : Payload) : Shape := p.body.shape

def ofBody (body : Body) (label subLabel : String) : Payload :=
  ⟨label, subLabel, "", "", .empty, body⟩

/-- The payload of a new node. -/
def empty (s : Shape) : Payload := ofBody s.emptyBody "" ""

def items (p : Payload) : List Item :=
  match p.body with
  | .items items | .process items _ _ => items
  | _ => []

def subproducts (p : Payload) : List Subproduct :=
  match p.body with
  | .process _ subproducts _ => subproducts
  | _ => []

/-- The kinds of row that the shape has, with the number of rows of each. -/
def rows (p : Payload) : List (RowKind × Nat) :=
  match p.body with
  | .items items => [(.item, items.length)]
  | .process items subproducts _ => [(.item, items.length), (.sub, subproducts.length)]
  | .decision branches => [(.branch, branches.length)]
  | _ => []

def rowCount (p : Payload) (kind : RowKind) : Nat :=
  (p.rows.lookup kind).getD 0

end Payload

/-! Equality of payloads by value. Entries are compared without their order. -/

def sameNumber? : Option Double → Option Double → Bool
  | some x, some y => x.equal y
  | none, none => true
  | _, _ => false

def Item.same (i j : Item) : Bool :=
  i.product == j.product && sameNumber? i.yieldRatio j.yieldRatio

def Subproduct.same (s t : Subproduct) : Bool :=
  s.product == t.product && sameNumber? s.ratio? t.ratio? && s.unit == t.unit

def sameAll {α : Type} (same : α → α → Bool) : List α → List α → Bool
  | [], [] => true
  | x :: xs, y :: ys => same x y && sameAll same xs ys
  | _, _ => false

def Table.same (s t : Table Value) : Bool :=
  (Value.object s.entries).same (.object t.entries)

def Body.same : Body → Body → Bool
  | .basic, .basic => true
  | .items xs, .items ys => sameAll Item.same xs ys
  | .process xs ss r, .process ys ts q =>
    sameAll Item.same xs ys && sameAll Subproduct.same ss ts && sameNumber? r q
  | .decision xs, .decision ys => xs == ys
  | .math e r, .math f q => e == f && r == q
  | .display v, .display w => v.same w
  | .piecework t r, .piecework u q => t == u && sameNumber? r q
  | _, _ => false

def Payload.same (p q : Payload) : Bool :=
  p.label == q.label && p.subLabel == q.subLabel && p.description == q.description &&
    p.location == q.location && p.extra.same q.extra && p.body.same q.body

end Flowsheet
