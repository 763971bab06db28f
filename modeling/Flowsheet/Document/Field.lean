import Flowsheet.Document.Problem
import Flowsheet.Numeral
import Flowsheet.Text.Blank
import Flowsheet.Value.Basic
import Flowsheet.Double.Rounding

/-! Checks of single values. Numbers and truth values may also be written as text. -/

namespace Flowsheet.Document

open scoped NativePower

def text : Value → Checked String
  | .text s => .valid s
  | _ => .flaw .notText

def filledText : Value → Checked String
  | .text s => if s = "" then .flaw .emptyText else .valid s
  | _ => .flaw .notText

def isAscii (c : Char) : Bool := c.toNat < 128

/-- The words for what is not finite, in small letters. -/
def nonFinite? (negative : Bool) (word : String) : Option Double :=
  if word = "inf" || word = "infinity" then some (.infinite negative)
  else if word = "nan" then some (.nan 0)
  else none

def smallLetters (cs : List Char) : String :=
  String.ofList (cs.map Char.toLower)

/-- The number that a text is, in ASCII and with nothing around it. -/
def plainNumber? (written : List Char) : Option Double := do
  guard (written.all isAscii)
  let (sign, unsigned) := Numeral.splitSign written
  let negative := sign == ['-']
  (nonFinite? negative (smallLetters unsigned)).or <|
    match Numeral.split? unsigned with
    | some (numeral, []) => some (Numeral.value negative numeral)
    | _ => none

/-- The number that a text writes. There may be white space around it, or else single underscores
anywhere inside it. -/
def writtenNumber? (s : String) : Option Double :=
  (plainNumber? (Text.strip Text.isWhiteSpace s.toList)).or
    ((Text.ungrouped? (· != '_') none s.toList).bind plainNumber?)

/-- A whole number beyond the finite numbers is none. -/
def number : Value → Checked Double
  | .double x => .valid x
  | .bool b => .valid (.ofInt (if b then 1 else 0))
  | .int n => match Double.ofInt n with
    | .finite negative place => .valid (.finite negative place)
    | _ => .flaw .notNumber
  | .text s => match writtenNumber? s with
    | some x => .valid x
    | none => .flaw .unreadableNumber
  | _ => .flaw .notNumber

def falseWords : List String := ["0", "off", "f", "false", "n", "no"]

def trueWords : List String := ["1", "on", "t", "true", "y", "yes"]

def wholeBool (n : Int) : Checked Bool :=
  if n = 0 then .valid false else if n = 1 then .valid true else .flaw .unreadableBool

/-- How many binary digits a whole number may have to be taken for a truth value at all. -/
abbrev wordWidth : Nat := 63

/-- The least word is taken only where it is written without a point. -/
def bool : Value → Checked Bool
  | .bool b => .valid b
  | .int n => if -2 ^ wordWidth ≤ n ∧ n < 2 ^ wordWidth then wholeBool n else .flaw .notBool
  | .double x => match x.whole? with
    | some n => if -2 ^ wordWidth < n ∧ n < 2 ^ wordWidth then wholeBool n else .flaw .notBool
    | none => .flaw .notBool
  | .text s =>
    let word := smallLetters s.toList
    if falseWords.contains word then .valid false
    else if trueWords.contains word then .valid true
    else .flaw .unreadableBool
  | _ => .flaw .notBool

def kind : Value → Checked Kind
  | .text s => match Kind.ofTag? s with
    | some k => .valid k
    | none => .flaw .unknownKind
  | _ => .flaw .unknownKind

def orNull {α : Type} (check : Value → Checked α) : Value → Checked (Option α)
  | .null => .valid none
  | v => (check v).map some

def itemsFrom {α : Type} (check : Value → Checked α) (index : Nat) :
    List Value → Checked (List α)
  | [] => .valid []
  | v :: rest =>
    (((check v).under (.item index)).map List.cons).seq (itemsFrom check (index + 1) rest)

def listOf {α : Type} (check : Value → Checked α) : Value → Checked (List α)
  | .list items => itemsFrom check 0 items
  | _ => .flaw .notList

abbrev Entries := List (String × Value)

def entries : Value → Checked Entries
  | .object es => .valid es
  | _ => .flaw .notObject

def record {α : Type} (name : String) (check : Entries → Checked α) : Value → Checked α
  | .object es => check es
  | _ => .flaw (.notRecord name)

/-- The entry of a field, which is looked up under each of its names in turn. -/
def namedField? (es : Entries) (names : List String) : Option (String × Value) :=
  names.findSome? fun name => (es.lookup name).map (name, ·)

/-- The check of a field, if it is there. Problems are reported under the name that it has there. -/
def field? {α : Type} (es : Entries) (names : List String) (check : Value → Checked α) :
    Option (Checked α) :=
  (namedField? es names).map fun (name, v) => (check v).under (.field name)

/-- A field that has to be there. If it is not, it is missed under its first name. -/
def required {α : Type} (es : Entries) (names : List String) (check : Value → Checked α) :
    Checked α :=
  (field? es names check).getD ((Checked.flaw .missing).under (.field (names.head?.getD "")))

def defaulting {α : Type} (es : Entries) (names : List String) (default : α)
    (check : Value → Checked α) : Checked α :=
  (field? es names check).getD (.valid default)

end Flowsheet.Document
