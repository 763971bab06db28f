import Flowsheet.Text.Quoted

/-! Texts inside addresses. What may not stand there is written as its bytes, each by a percent sign
and two digits. -/

namespace Flowsheet.Web

/-- Characters that stand for themselves in every part of an address. -/
def isUnreserved (c : Char) : Bool :=
  c.isAlphanum || c == '-' || c == '.' || c == '_' || c == '~'

/-- Further characters that stand for themselves in the path of an address. A question mark or a
number sign would end the path. -/
def isPathMark (c : Char) : Bool :=
  ":/%=@[]!$&'()*+,;".toList.contains c

def percentByte (b : UInt8) : List Char :=
  '%' :: (Text.hexDigits 2 b.toNat).map Char.toUpper

def percentChar (c : Char) : List Char :=
  (String.utf8EncodeChar c).flatMap percentByte

def pathChar (c : Char) : List Char :=
  if isUnreserved c || isPathMark c then [c] else percentChar c

/-- A name or a value of a form. A space is written as a plus sign. -/
def formChar (c : Char) : List Char :=
  if c == ' ' then ['+'] else if isUnreserved c then [c] else percentChar c

def pathText (s : String) : String :=
  String.ofList (s.toList.flatMap pathChar)

def formText (s : String) : String :=
  String.ofList (s.toList.flatMap formChar)

abbrev Fields := List (String × String)

def formLine (fields : Fields) : String :=
  "&".intercalate (fields.map fun (name, value) => formText name ++ "=" ++ formText value)

/-- The value of a field. Of several the last one counts. -/
def lastValue? (fields : Fields) (name : String) : Option String :=
  fields.reverse.lookup name

end Flowsheet.Web
