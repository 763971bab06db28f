/-! Decimal digits of every script. They come in runs of ten consecutive characters, so the table
holds the zero of each run and a digit is worth its distance from that zero. -/

namespace Flowsheet.Text

/-- The zero of each run of decimal digits (general category `Nd`). -/
def digitZeros : List Nat := [
  0x0030, 0x0660, 0x06F0, 0x07C0, 0x0966, 0x09E6, 0x0A66, 0x0AE6, 0x0B66, 0x0BE6, 0x0C66, 0x0CE6,
  0x0D66, 0x0DE6, 0x0E50, 0x0ED0, 0x0F20, 0x1040, 0x1090, 0x17E0, 0x1810, 0x1946, 0x19D0, 0x1A80,
  0x1A90, 0x1B50, 0x1BB0, 0x1C40, 0x1C50, 0xA620, 0xA8D0, 0xA900, 0xA9D0, 0xA9F0, 0xAA50, 0xABF0,
  0xFF10, 0x104A0, 0x10D30, 0x11066, 0x110F0, 0x11136, 0x111D0, 0x112F0, 0x11450, 0x114D0,
  0x11650, 0x116C0, 0x11730, 0x118E0, 0x11950, 0x11C50, 0x11D50, 0x11DA0, 0x16A60, 0x16AC0,
  0x16B50, 0x1D7CE, 0x1D7D8, 0x1D7E2, 0x1D7EC, 0x1D7F6, 0x1E140, 0x1E2F0, 0x1E950, 0x1FBF0]

def digitValue? (c : Char) : Option Nat :=
  (digitZeros.find? fun z => z ≤ c.toNat && c.toNat < z + 10).map (c.toNat - ·)

def isDigit (c : Char) : Bool :=
  (digitValue? c).isSome

def digitValue (c : Char) : Nat :=
  (digitValue? c).getD 0

/-- The number that a row of digits writes, most significant digit first. -/
def numberOfDigits (digits : List Char) : Nat :=
  digits.foldl (fun n c => 10 * n + digitValue c) 0

/-- The longest row of digits that is read or written as one number. -/
def longestRow : Nat := 4300

/-- What is said of a number with more digits, and of the digits if they were counted. -/
def longNumberMessage (counted : String) : String :=
  s!"Exceeds the limit ({longestRow} digits) for integer string conversion{counted}; " ++
    "use sys.set_int_max_str_digits() to increase the limit"

/-- A text without its underscores, each of which has to stand between two characters of the
class. -/
def ungrouped? (p : Char → Bool) (before : Option Char) : List Char → Option (List Char)
  | [] => some []
  | '_' :: rest =>
    if before.any p && rest.head?.any p then ungrouped? p none rest else none
  | c :: rest => (ungrouped? p (some c) rest).map (c :: ·)

theorem isDigit_zero : isDigit '0' = true := rfl

end Flowsheet.Text
