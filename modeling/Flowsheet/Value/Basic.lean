import Flowsheet.Double.Basic

/-! The values that documents and variables hold. The entries of an object keep their order, and
each key occurs once. -/

namespace Flowsheet

inductive Value where
  | null
  | bool (b : Bool)
  | int (n : Int)
  | double (x : Double)
  | text (s : String)
  | list (items : List Value)
  | object (entries : List (String × Value))
deriving Repr, Inhabited

namespace Value

/-- Truth values count as the whole numbers zero and one. -/
def wholeNumber? : Value → Option Int
  | .bool b => some (if b then 1 else 0)
  | .int n => some n
  | _ => none

/-- Equality of two values that hold no others. Numbers compare by value, whatever their kind. -/
def sameAtom : Value → Value → Bool
  | .null, .null => true
  | .text s, .text t => s == t
  | .double x, .double y => x.equal y
  | .double x, v | v, .double x => (v.wholeNumber?.map x.equalsInt).getD false
  | v, w => v.wholeNumber?.isSome && v.wholeNumber? == w.wholeNumber?

mutual

/-- Equality as a reader of the values sees it: objects are equal whatever the order of their
entries. -/
def same : Value → Value → Bool
  | .list xs, .list ys => sameItems xs ys
  | .object es, .object fs => es.length == fs.length && sameEntries es fs
  | v, w => sameAtom v w

def sameItems : List Value → List Value → Bool
  | [], [] => true
  | x :: xs, y :: ys => same x y && sameItems xs ys
  | _, _ => false

def sameEntries : List (String × Value) → List (String × Value) → Bool
  | [], _ => true
  | (key, v) :: es, fs =>
    (match fs.lookup key with
      | some w => same v w
      | none => false) && sameEntries es fs

end

end Value

end Flowsheet
