import Flowsheet.Double.Rounding

/-! Whole numbers among the binary numbers, and the whole part of a binary number. -/

namespace Flowsheet.Double

open scoped NativePower

theorem eq_of_ofUnits_eq_infinite {negative sign : Bool} {n d : Nat}
    (hn : ofUnits negative n d = .infinite sign) : sign = negative := by
  unfold ofUnits at hn
  split at hn <;> cases hn
  rfl

theorem ofInt_of_units {n : Int} {place : Fin places} (hn : 0 ≤ n)
    (hp : units place = n.natAbs * one) : ofInt n = .finite false place := by
  have hsign : decide (n < 0) = false := decide_eq_false (by omega)
  rw [ofInt, hsign, ← hp, ← Nat.mul_one (units place)]
  exact ofUnits_units false place Nat.one_pos

theorem ofInt_zero : ofInt 0 = zero := by
  refine ofInt_of_units (Int.le_refl 0) ?_
  rw [Int.natAbs_zero, Nat.zero_mul]
  rfl

def placeOfOne : Fin places := ⟨1023 * 2 ^ fractionWidth, by decide⟩

theorem ofInt_one : ofInt 1 = .finite false placeOfOne := by
  have hsignificand : significand placeOfOne = 2 ^ fractionWidth := by decide
  have hscale : scale placeOfOne = leastPower - fractionWidth := by decide
  refine ofInt_of_units Int.one_nonneg ?_
  rw [Int.natAbs_one, Nat.one_mul, units, hsignificand, hscale, ← Nat.pow_add, one,
    Nat.add_sub_of_le (by decide)]

theorem signed_eq_signed_mul_iff (negative : Bool) (m n k : Nat) :
    signed negative m = signed negative n * k ↔ m = n * k := by
  unfold signed
  cases negative <;> simp only [Bool.false_eq_true, if_false, if_true, Int.neg_mul] <;> omega

/-- A number equals its whole part exactly if it is whole. -/
theorem equalsInt_wholePart (negative : Bool) (place : Fin places) :
    (finite negative place).equalsInt (signed negative (units place / one)) =
      decide (units place % one = 0) := by
  have hdivision := Nat.div_add_mod' (units place) one
  rw [Bool.eq_iff_iff, equalsInt, beq_iff_eq, decide_eq_true_eq, signed_eq_signed_mul_iff]
  omega

end Flowsheet.Double
