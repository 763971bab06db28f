import Flowsheet.Double.Rounding

/-! The four operations: each is exact on the magnitudes and rounds once. -/

namespace Flowsheet.Double

/-- The number nearest to a signed count of units; a sum that cancels is zero of the given sign. -/
def ofSignedUnits (zeroNegative : Bool) (n : Int) : Double :=
  ofUnits (if n = 0 then zeroNegative else n < 0) n.natAbs 1

def add : Double → Double → Double
  | .nan payload, _ | _, .nan payload => .nan payload
  | .infinite s, .infinite t => if s = t then .infinite s else .nan 0
  | .infinite s, .finite .. | .finite .., .infinite s => .infinite s
  | .finite s p, .finite t q => ofSignedUnits (s && t) (signed s (units p) + signed t (units q))

def sub (x y : Double) : Double :=
  add x y.negate

def mul : Double → Double → Double
  | .nan payload, _ | _, .nan payload => .nan payload
  | .infinite s, .infinite t => .infinite (s != t)
  | .infinite s, .finite t p | .finite t p, .infinite s =>
    if p.val = 0 then .nan 0 else .infinite (s != t)
  | .finite s p, .finite t q => ofUnits (s != t) (units p * units q) one

def div : Double → Double → Double
  | .nan payload, _ | _, .nan payload => .nan payload
  | .infinite _, .infinite _ => .nan 0
  | .infinite s, .finite t _ => .infinite (s != t)
  | .finite s _, .infinite t => signedZero (s != t)
  | .finite s p, .finite t q =>
    if q.val = 0 then if p.val = 0 then .nan 0 else .infinite (s != t)
    else ofUnits (s != t) (units p * one) (units q)

end Flowsheet.Double
