/-! Lines of hypertext. -/

namespace Flowsheet.Web

def escapedChar : Char → List Char
  | '&' => "&amp;".toList
  | '<' => "&lt;".toList
  | '>' => "&gt;".toList
  | '"' => "&#34;".toList
  | '\'' => "&#39;".toList
  | c => [c]

/-- A text of which nothing is taken for markup. -/
def escaped (s : String) : String :=
  String.ofList (s.toList.flatMap escapedChar)

def indented (depth : Nat) (line : String) : String :=
  String.ofList (List.replicate depth ' ') ++ line

/-- Parts of which there may be any number. A blank line stands before each of them and after the
last one. -/
def parts (depth : Nat) (bodies : List (List String)) : List String :=
  bodies.flatMap (indented depth "" :: ·) ++ [indented depth ""]

/-- A part that is left out unless the condition holds. -/
def partIf (depth : Nat) (condition : Bool) (body : List String) : List String :=
  parts depth (if condition then [body] else [])

def wordIf (condition : Bool) (word : String) : String :=
  if condition then word else ""

end Flowsheet.Web
