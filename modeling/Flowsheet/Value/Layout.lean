import Flowsheet.Value.Display

/-! Values over several lines. A value that fits on the rest of its line is shown there; the parts
of any other have lines of their own, and the entries of its objects are sorted by their keys. -/

namespace Flowsheet.Value

def lineWidth : Nat := 80

mutual

/-- With the entries of all objects sorted by their keys. -/
def sorted : Value → Value
  | .list items => .list (sortedItems items)
  | .object entries => .object ((sortedEntries entries).mergeSort fun e f => e.1 ≤ f.1)
  | v => v

def sortedItems : List Value → List Value
  | [] => []
  | v :: rest => sorted v :: sortedItems rest

def sortedEntries : List (String × Value) → List (String × Value)
  | [] => []
  | (key, v) :: rest => (key, sorted v) :: sortedEntries rest

end

/-- The end of a line and the indent of the next one. -/
def lineBreak (indent : Nat) : String :=
  String.ofList (',' :: '\n' :: List.replicate indent ' ')

mutual

/-- The value from the column `indent` on, with room for `reserved` characters after it. -/
def spread (indent reserved : Nat) : Value → String
  | .list items =>
    let line := (Value.list items).shown
    if indent + line.length + reserved ≤ lineWidth then line
    else "[" ++ spreadItems (indent + 1) (reserved + 1) items ++ "]"
  | .object entries =>
    let line := (Value.object entries).shown
    if indent + line.length + reserved ≤ lineWidth then line
    else "\x7b" ++ spreadEntries (indent + 1) (reserved + 1) entries ++ "\x7d"
  | v => v.shown

/-- Only the last item has to leave room for what closes the list. -/
def spreadItems (indent reserved : Nat) : List Value → String
  | [] => ""
  | [v] => spread indent reserved v
  | v :: rest => spread indent 1 v ++ lineBreak indent ++ spreadItems indent reserved rest

def spreadEntries (indent reserved : Nat) : List (String × Value) → String
  | [] => ""
  | [(key, v)] =>
    let lead := Text.quoted key ++ ": "
    lead ++ spread (indent + lead.length) reserved v
  | (key, v) :: rest =>
    let lead := Text.quoted key ++ ": "
    lead ++ spread (indent + lead.length) 1 v ++ lineBreak indent ++
      spreadEntries indent reserved rest

end

def layout (v : Value) : String :=
  spread 0 0 v.sorted

end Flowsheet.Value
