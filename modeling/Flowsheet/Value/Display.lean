import Flowsheet.Double.Notation
import Flowsheet.Text.Quoted
import Flowsheet.Value.Parts

/-! Values as text, for people to read. A text stands for itself on its own and is quoted inside
other values. -/

namespace Flowsheet.Value

mutual

def shown : Value → String
  | .null => "None"
  | .bool true => "True"
  | .bool false => "False"
  | .int n => toString n
  | .double x => x.text
  | .text s => Text.quoted s
  | .list items => "[" ++ ", ".intercalate (shownItems items) ++ "]"
  | .object entries => "\x7b" ++ ", ".intercalate (shownEntries entries) ++ "\x7d"

def shownItems : List Value → List String
  | [] => []
  | v :: rest => shown v :: shownItems rest

def shownEntries : List (String × Value) → List String
  | [] => []
  | (key, v) :: rest => (Text.quoted key ++ ": " ++ shown v) :: shownEntries rest

end

def plain : Value → String
  | .text s => s
  | v => v.shown

/-- The text of a value, unless there is a number in it that is too long to be written. -/
def plain? (v : Value) : Option String :=
  if v.isShort then some v.plain else none

end Flowsheet.Value
