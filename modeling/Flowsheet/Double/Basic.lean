/-! Binary64 numbers. The finite ones of one sign are counted in rising order from zero, and the
`p`-th of them is `units p` times the least positive one. -/

namespace Flowsheet.NativePower

-- Powers are those of the number types themselves, whatever else is imported.
attribute [scoped instance (5000)] instPowNat

end Flowsheet.NativePower

namespace Flowsheet

open scoped NativePower

/-- How many binary digits a significand has after its first one. -/
abbrev Double.fractionWidth : Nat := 52

/-- How many finite numbers there are of each sign. -/
abbrev Double.places : Nat := 2047 * 2 ^ Double.fractionWidth

/-- The payload of a not-a-number carries no value; it tells two of them apart. -/
inductive Double where
  | nan (payload : Nat)
  | infinite (negative : Bool)
  | finite (negative : Bool) (place : Fin Double.places)
deriving DecidableEq, Repr

namespace Double

theorem places_pos : 0 < places := by decide

def signedZero (negative : Bool) : Double := .finite negative ⟨0, places_pos⟩

def zero : Double := signedZero false

instance : Inhabited Double := ⟨zero⟩

/-- The power of two that separates a place from its neighbours, in units. -/
def scale (place : Nat) : Nat := place / 2 ^ fractionWidth - 1

def significand (place : Nat) : Nat := place - scale place * 2 ^ fractionWidth

/-- The magnitude at a place, in units of the least positive number. -/
def units (place : Nat) : Nat := significand place * 2 ^ scale place

/-- The least positive number is two to the power of minus this. -/
def leastPower : Nat := 1074

/-- One, counted in units. -/
def one : Nat := 2 ^ leastPower

def isNaN : Double → Bool
  | .nan _ => true
  | _ => false

def isZero : Double → Bool
  | .finite _ place => place.val == 0
  | _ => false

def isNegative : Double → Bool
  | .nan _ => false
  | .infinite negative | .finite negative _ => negative

def isBelowZero (x : Double) : Bool :=
  x.isNegative && !x.isZero

def negate : Double → Double
  | .nan payload => .nan payload
  | .infinite negative => .infinite !negative
  | .finite negative place => .finite (!negative) place

def signed (negative : Bool) (n : Nat) : Int :=
  if negative then -(n : Int) else n

/-- Equality of values. The two zeros are equal, and a not-a-number equals only those that carry
its payload. -/
def equal : Double → Double → Bool
  | .nan p, .nan q => p == q
  | .infinite s, .infinite t => s == t
  | .finite s p, .finite t q => p == q && (s == t || p.val == 0)
  | _, _ => false

def equalsInt : Double → Int → Bool
  | .finite negative place, n => signed negative (units place) == n * one
  | _, _ => false

/-- The number itself, if it is whole. -/
def whole? : Double → Option Int
  | .finite negative place =>
    if units place % one = 0 then some (signed negative (units place / one)) else none
  | _ => none

end Double

end Flowsheet
