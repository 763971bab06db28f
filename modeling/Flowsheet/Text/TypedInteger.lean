import Flowsheet.Numeral
import Flowsheet.Text.Blank

/-! Whole numbers as people type them: white space around, perhaps a sign, and digits of any script
that may be grouped by underscores. -/

namespace Flowsheet.Text

def typedInteger? (s : String) : Option Int := do
  let (sign, grouped) := Numeral.splitSign (strip isWhiteSpace s.toList)
  let digits ← ungrouped? isDigit none grouped
  guard (digits ≠ [] ∧ digits.all isDigit ∧ digits.length ≤ longestRow)
  return Double.signed (sign == ['-']) (numberOfDigits digits)

end Flowsheet.Text
