/-! Expression trees and their values. The value of a tree does not depend on what the numbers are:
the operations on them are given. -/

namespace Flowsheet.Expression

inductive Sign where
  | plus
  | minus
deriving DecidableEq, Repr

inductive Operation where
  | add
  | sub
  | mul
  | div
deriving DecidableEq, Repr

inductive Tree (α : Type) where
  | number (x : α)
  | signed (sign : Sign) (operand : Tree α)
  | binary (operation : Operation) (left right : Tree α)
deriving DecidableEq, Repr

/-- What the signs and the four operators mean. A plus sign changes nothing. -/
structure Arithmetic (α : Type) where
  negate : α → α
  apply : Operation → α → α → α

namespace Tree

variable {α : Type}

def value (A : Arithmetic α) : Tree α → α
  | .number x => x
  | .signed .plus t => t.value A
  | .signed .minus t => A.negate (t.value A)
  | .binary operation l r => A.apply operation (l.value A) (r.value A)

end Tree

end Flowsheet.Expression
