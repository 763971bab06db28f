import Flowsheet.Double.Basic

/-! The records of the catalogs: products, shop-floor tasks and processes. -/

namespace Flowsheet

/-- An amount of money, whole or not, as it was given. -/
inductive Amount where
  | whole (n : Int)
  | fractional (x : Double)
deriving DecidableEq, Repr

def Amount.isNegative : Amount → Bool
  | .whole n => n < 0
  | .fractional x => x.isBelowZero

structure Product where
  id : String
  name : String
  unit : String
  isInput : Bool
  isOutput : Bool
deriving DecidableEq, Repr

structure ShopTask where
  id : String
  name : String
  description : String
  rate : Amount
deriving DecidableEq, Repr

structure Workflow where
  id : String
  name : String
  description : String
deriving DecidableEq, Repr

end Flowsheet
