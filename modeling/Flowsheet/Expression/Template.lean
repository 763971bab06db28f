import Flowsheet.Numeral
import Flowsheet.Text.Blank
import Flowsheet.Value.Number

/-! Templates: text in which a name between double braces stands for the number of that variable. A
name ends at the first closing pair and stays on one line; braces that open no name are text. -/

namespace Flowsheet.Template

inductive Piece where
  | literal (c : Char)
  | placeholder (inner : List Char)
deriving DecidableEq, Repr

/-- What stands before the first pair of closing braces, and what follows the pair. -/
def splitAtClose : List Char → Option (List Char × List Char)
  | '\x7d' :: '\x7d' :: rest => some ([], rest)
  | '\n' :: _ => none
  | c :: rest => (splitAtClose rest).map fun (inner, after) => (c :: inner, after)
  | [] => none

theorem length_of_splitAtClose {cs inner after : List Char}
    (h : splitAtClose cs = some (inner, after)) : inner.length + after.length + 2 = cs.length := by
  fun_induction splitAtClose cs generalizing inner after with
  | case1 rest =>
    cases h
    simp
  | case2 => simp at h
  | case3 c rest _ _ ih =>
    obtain ⟨⟨i, a⟩, hs, he⟩ := Option.map_eq_some_iff.1 h
    cases he
    have := ih hs
    simp only [List.length_cons]
    omega
  | case4 => simp at h

/-- The placeholder that the text begins with, if it begins with one. -/
def splitPlaceholder : List Char → Option (List Char × List Char)
  | '\x7b' :: '\x7b' :: rest => splitAtClose rest
  | _ => none

theorem length_of_splitPlaceholder {cs inner after : List Char}
    (h : splitPlaceholder cs = some (inner, after)) : after.length < cs.length := by
  unfold splitPlaceholder at h
  split at h
  · have := length_of_splitAtClose h
    simp only [List.length_cons]
    omega
  · simp at h

def pieces (cs : List Char) : List Piece :=
  match _hcs : cs with
  | [] => []
  | c :: rest =>
    match h : splitPlaceholder cs with
    | some (inner, after) =>
      have := length_of_splitPlaceholder h
      .placeholder inner :: pieces after
    | none => .literal c :: pieces rest
termination_by cs.length
decreasing_by all_goals simp_all

/-- The name inside a placeholder. -/
def name (inner : List Char) : String :=
  String.ofList (Text.strip Text.isBlank inner)

def Piece.name? : Piece → Option String
  | .placeholder inner => some (name inner)
  | .literal _ => none

/-- The names that the template reads, in order. -/
def references (template : String) : List String :=
  (pieces template.toList).filterMap Piece.name?

def Piece.render (numberOf : String → Double) : Piece → List Char
  | .literal c => [c]
  | .placeholder inner => Numeral.render (numberOf (name inner))

def fill (numberOf : String → Double) (template : List Char) : List Char :=
  (pieces template).flatMap (Piece.render numberOf)

/-- A missing variable counts as zero. -/
def numberIn (get? : String → Option Value) (name : String) : Double :=
  ((get? name).map Value.number).getD .zero

/-- The template with each placeholder replaced by the number of its variable. -/
def interpolate (template : String) (get? : String → Option Value) : String :=
  String.ofList (fill (numberIn get?) template.toList)

/-- The variable that receives the result: the one named, and otherwise the first one read. A blank
name is no name. -/
def target? (template : String) (resultName : Option String) : Option String :=
  let named := (resultName.map Text.trim).filter (· ≠ "")
  named.orElse fun _ => (references template).head?.filter (· ≠ "")

end Flowsheet.Template
