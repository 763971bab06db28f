import Flowsheet.Value.Basic

/-! Values as they are seen from outside. Entries with a private key are left out, at every depth. -/

namespace Flowsheet

def isPrivateKey (key : String) : Bool :=
  "_sa".toList.isPrefixOf key.toList

namespace Value

mutual

def visible : Value → Value
  | .list items => .list (visibleItems items)
  | .object entries => .object (visibleEntries entries)
  | v => v

def visibleItems : List Value → List Value
  | [] => []
  | v :: rest => visible v :: visibleItems rest

def visibleEntries : List (String × Value) → List (String × Value)
  | [] => []
  | (key, v) :: rest =>
    if isPrivateKey key then visibleEntries rest else (key, visible v) :: visibleEntries rest

end

end Value

end Flowsheet
