import Flowsheet.Double.Shortest

/-! The text of a number: the shortest digits that read back, written out as long as the power of
ten of the first digit is at least `-4` and less than `16`, and with an exponent otherwise. -/

namespace Flowsheet.Double

def decimalDigits (n : Nat) : List Char :=
  Nat.toDigits 10 n

/-- Without the zeros at its end, except for a first digit. -/
def dropEndZeros (digits : List Char) : List Char :=
  match (digits.reverse.dropWhile (· == '0')).reverse with
  | [] => ['0']
  | kept => kept

def zeros (n : Nat) : List Char :=
  List.replicate n '0'

/-- Digits with a point and at least one digit on each side of it. -/
def positional (digits : List Char) (lead : Int) : List Char :=
  if lead < 0 then '0' :: '.' :: zeros (-lead - 1).toNat ++ digits
  else
    let whole := lead.toNat + 1
    match digits.drop whole with
    | [] => digits ++ zeros (whole - digits.length) ++ ['.', '0']
    | fraction => digits.take whole ++ '.' :: fraction

/-- One digit before the point, none of which is written if no digit follows, and an exponent with
its sign and at least two digits. -/
def scientific (digits : List Char) (lead : Int) : List Char :=
  let mantissa := match digits with
    | first :: second :: rest => first :: '.' :: second :: rest
    | _ => digits
  let power := decimalDigits lead.natAbs
  mantissa ++ 'e' :: (if lead < 0 then '-' else '+') :: zeros (2 - power.length) ++ power

def positionalLeads (lead : Int) : Bool :=
  -4 ≤ lead && lead < 16

def decimalText (d : Decimal) : List Char :=
  let all := decimalDigits d.coefficient
  let lead := d.exponent + all.length - 1
  let digits := dropEndZeros all
  if positionalLeads lead then positional digits lead else scientific digits lead

def signText (negative : Bool) : List Char :=
  if negative then ['-'] else []

/-- The text that a value shows. -/
def text : Double → String
  | .nan _ => "nan"
  | .infinite negative => String.ofList (signText negative ++ ['i', 'n', 'f'])
  | .finite negative place =>
    let d := if place.val = 0 then ⟨0, 0⟩ else shortest place
    String.ofList (signText negative ++ decimalText d)

end Flowsheet.Double
