/-! Texts that arrive as bytes. A text that begins with two ASCII characters shows by the zeros among
its first bytes how wide its units are and which of their bytes comes first. -/

namespace Flowsheet.Text

/-! Halves of characters that take two units of sixteen bits. -/

def isHighHalf (unit : Nat) : Bool := 0xD800 ≤ unit && unit < 0xDC00

def isLowHalf (unit : Nat) : Bool := 0xDC00 ≤ unit && unit < 0xE000

def joinHalves (high low : Nat) : Char :=
  Char.ofNat (0x10000 + (high - 0xD800) * 0x400 + (low - 0xDC00))

/-- A half without the other is no character, and what is to stand for it has to be said. -/
def unitChar (lone : Nat → Char) (unit : Nat) : Char :=
  if isHighHalf unit || isLowHalf unit then lone unit else Char.ofNat unit

def charsOfUnits (lone : Nat → Char) : List Nat → List Char
  | [] => []
  | [unit] => [unitChar lone unit]
  | high :: low :: rest =>
    if isHighHalf high && isLowHalf low then joinHalves high low :: charsOfUnits lone rest
    else unitChar lone high :: charsOfUnits lone (low :: rest)

/-! Bytes. -/

inductive Encoding where
  | utf8
  | utf16 (bigEndian : Bool)
  | utf32 (bigEndian : Bool)
deriving DecidableEq, Repr

def Encoding.ofBytes : List UInt8 → Encoding
  | [a, b] => if a = 0 then .utf16 true else if b = 0 then .utf16 false else .utf8
  | a :: b :: c :: d :: _ =>
    if a = 0 then if b = 0 then .utf32 true else .utf16 true
    else if b = 0 then if c = 0 ∧ d = 0 then .utf32 false else .utf16 false
    else .utf8
  | _ => .utf8

def numberOfBytes (bigEndian : Bool) (bytes : List UInt8) : Nat :=
  (if bigEndian then bytes else bytes.reverse).foldl (fun n b => 256 * n + b.toNat) 0

/-- The units of two bytes each, if no byte is left over. -/
def units16? (bigEndian : Bool) : List UInt8 → Option (List Nat)
  | [] => some []
  | a :: b :: rest => (units16? bigEndian rest).map (numberOfBytes bigEndian [a, b] :: ·)
  | _ => none

/-- The units of four bytes each, if no byte is left over. -/
def units32? (bigEndian : Bool) : List UInt8 → Option (List Nat)
  | [] => some []
  | a :: b :: c :: d :: rest =>
    (units32? bigEndian rest).map (numberOfBytes bigEndian [a, b, c, d] :: ·)
  | _ => none

def maxCodePoint : Nat := 0x10FFFF

/-- The mark of the byte order does not belong to the text that it stands before. -/
def withoutMark : List Char → List Char
  | '\uFEFF' :: rest => rest
  | cs => cs

/-- The text that the bytes of a text stand for, which may be in another encoding. -/
def decoded? (lone : Nat → Char) (cs : List Char) : Option (List Char) :=
  let bytes := cs.flatMap String.utf8EncodeChar
  match Encoding.ofBytes bytes with
  | .utf8 => some (withoutMark cs)
  | .utf16 bigEndian => (units16? bigEndian bytes).map (charsOfUnits lone)
  | .utf32 bigEndian => do
    let units ← units32? bigEndian bytes
    guard (units.all (· ≤ maxCodePoint))
    return units.map (unitChar lone)

end Flowsheet.Text
