import Flowsheet.Double.Rounding

/-! Decimal numbers, a coefficient times a power of ten, and the binary64 number nearest to one. -/

namespace Flowsheet

open scoped NativePower

structure Decimal where
  coefficient : Nat
  exponent : Int
deriving DecidableEq, Repr

namespace Decimal

/-- The magnitude as a quotient of natural numbers, in units of the binary numbers. -/
def numerator (d : Decimal) : Nat := d.coefficient * 10 ^ d.exponent.toNat * Double.one

def denominator (d : Decimal) : Nat := 10 ^ (-d.exponent).toNat

/-- The nearest binary number. Decimals beyond every finite number and below half the least positive
one are told by their exponents, before any power of ten is taken. -/
def toDouble (negative : Bool) (d : Decimal) : Double :=
  if d.coefficient = 0 then Double.signedZero negative
  else if 400 < d.exponent then .infinite negative
  else if d.exponent + d.coefficient.log2 < -400 then Double.signedZero negative
  else Double.ofUnits negative d.numerator d.denominator

theorem toDouble_eq_ofUnits {d : Decimal} (negative : Bool) (hc : d.coefficient ≠ 0)
    (hl : d.exponent ≤ 400) (hs : -400 ≤ d.exponent + d.coefficient.log2) :
    d.toDouble negative = Double.ofUnits negative d.numerator d.denominator := by
  unfold toDouble
  rw [if_neg hc, if_neg (by omega), if_neg (by omega)]

/-- The sign of a decimal is kept by the number it reads as. -/
theorem isNegative_toDouble (negative : Bool) (d : Decimal) :
    (d.toDouble negative).isNegative = negative := by
  unfold toDouble Double.ofUnits
  repeat' split
  all_goals rfl

/-- The magnitude that is read does not depend on the sign. -/
theorem toDouble_true (d : Decimal) : d.toDouble true = (d.toDouble false).negate := by
  unfold toDouble Double.ofUnits
  repeat' split
  all_goals rfl

end Decimal

end Flowsheet
