import Flowsheet.Node.Payload
import Flowsheet.Text.DecimalDigit

/-! Handles of edges. A handle that names a row gives its kind and its index; any other handle is
free text. -/

namespace Flowsheet

structure RowHandle where
  kind : RowKind
  index : Nat
deriving DecidableEq, Repr

namespace RowHandle

/-- The digits of the index: all that follows the kind, except for one final line break. -/
def indexDigits? (rest : List Char) : Option (List Char) :=
  let digits := rest.takeWhile Text.isDigit
  match digits, rest.dropWhile Text.isDigit with
  | [], _ => none
  | _, [] | _, ['\n'] => some digits
  | _, _ => none

def split? (handle : List Char) (kind : RowKind) : Option (RowKind × List Char) :=
  let start := kind.tag.toList ++ ['-']
  if start.isPrefixOf handle then
    (indexDigits? (handle.drop start.length)).map fun digits => (kind, digits)
  else none

/-- The row that a handle names. An index that is too long to read is an error that gives its
number of digits. -/
def read (handle : String) : Except Nat (Option RowHandle) :=
  match RowKind.all.findSome? (split? handle.toList) with
  | none => .ok none
  | some (kind, digits) =>
    if Text.longestRow < digits.length then .error digits.length
    else .ok (some ⟨kind, Text.numberOfDigits digits⟩)

def read? : Option String → Except Nat (Option RowHandle)
  | some handle => read handle
  | none => .ok none

end RowHandle

end Flowsheet
