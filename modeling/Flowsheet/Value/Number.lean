import Flowsheet.Numeral
import Flowsheet.Text.Blank
import Flowsheet.Value.Basic
import Flowsheet.Double.Rounding

/-! The number that a value stands for in arithmetic. Whatever has none counts as zero, so that the
reading is defined for every value and is always a number. -/

namespace Flowsheet

/-- A text without blanks around it: one sign at most, then a numeral or the word for infinity. -/
def Numeral.read (cs : List Char) : Double :=
  let (sign, rest) := Numeral.splitSign cs
  let negative := sign == ['-']
  if rest == Numeral.infinityName then .infinite negative
  else match Numeral.split? rest with
    | some (numeral, []) => Numeral.value negative numeral
    | _ => .zero

namespace Value

def number : Value → Double
  | .bool b => .ofInt (if b then 1 else 0)
  | .int n => .ofInt n
  | .double x => if x.isNaN then .zero else x
  | .text s => Numeral.read (Text.strip Text.isBlank s.toList)
  | _ => .zero

end Value

end Flowsheet
