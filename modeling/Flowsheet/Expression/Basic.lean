import Flowsheet.Double.Arithmetic
import Flowsheet.Expression.Machine
import Flowsheet.Expression.Parser
import Flowsheet.Expression.Template

/-! Expressions over variables: a template whose filled text is arithmetic. No text of a variable
becomes part of the arithmetic, only its number. -/

namespace Flowsheet.Expression

/-- Division by zero has a value as well, so every tree has one. -/
def doubles : Arithmetic Double where
  negate := Double.negate
  apply
    | .add => Double.add
    | .sub => Double.sub
    | .mul => Double.mul
    | .div => Double.div

/-- The value of a template, or the filled text and what is wrong with it. -/
def evaluate (template : String) (get? : String → Option Value) :
    Except (SyntaxFault × String) Double :=
  let text := Template.interpolate template get?
  match parse text with
  | .ok tree => .ok (tree.evaluate doubles)
  | .error fault => .error (fault, text)

end Flowsheet.Expression
