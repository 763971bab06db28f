import Flowsheet.Double.Decimal

/-! The number that a decimal reads as depends on its magnitude only: the bounds on the exponent
save work and change nothing. -/

namespace Flowsheet

open scoped NativePower

namespace Double

theorem nearestPlace_eq_zero {n d : Nat} (h : 2 * n < d) : nearestPlace n d = 0 := by
  have hq : n / d = 0 := Nat.div_eq_of_lt (by omega)
  have hm : n % d = n := Nat.mod_eq_of_lt (by omega)
  simp [nearestPlace, roundQuotient, hq, hm, h]

theorem le_nearestPlace (n d : Nat) :
    ((n / d).log2 - fractionWidth) * 2 ^ fractionWidth ≤ nearestPlace n d :=
  Nat.le_add_left _ _

theorem ofUnits_congr {n d n' d' : Nat} (negative : Bool) (hd : 0 < d) (hd' : 0 < d')
    (h : n * d' = n' * d) : ofUnits negative n d = ofUnits negative n' d' := by
  have hplace : nearestPlace n d = nearestPlace n' d' := by
    rw [← nearestPlace_mul n hd hd', h, Nat.mul_comm d d', nearestPlace_mul n' hd' hd]
  simp only [ofUnits, hplace]

theorem ofUnits_zero (negative : Bool) {d : Nat} (hd : 0 < d) :
    ofUnits negative 0 d = signedZero negative := by
  have hplace : nearestPlace 0 d = 0 := nearestPlace_eq_zero hd
  simp [ofUnits, hplace, signedZero]

theorem two_pow_le_ten_pow (n : Nat) : 2 ^ (3 * n) ≤ 10 ^ n := by
  rw [Nat.pow_mul]
  exact Nat.pow_le_pow_left (by decide) n

end Double

namespace Decimal

open Double

theorem denominator_pos (d : Decimal) : 0 < d.denominator :=
  Nat.pow_pos (by decide)

theorem places_le_nearestPlace {d : Decimal} (hc : d.coefficient ≠ 0) (he : 400 < d.exponent) :
    places ≤ nearestPlace d.numerator d.denominator := by
  have hden : d.denominator = 1 := by
    rw [denominator, show (-d.exponent).toNat = 0 by omega, Nat.pow_zero]
  have hnum : 2 ^ (3 * d.exponent.toNat + leastPower) ≤ d.numerator := by
    rw [numerator, one, Nat.pow_add]
    refine Nat.mul_le_mul_right _ (Nat.le_trans (two_pow_le_ten_pow _) ?_)
    exact Nat.le_mul_of_pos_left _ (Nat.pos_of_ne_zero hc)
  have hne : d.numerator ≠ 0 :=
    Nat.pos_iff_ne_zero.1 (Nat.lt_of_lt_of_le (Nat.two_pow_pos _) hnum)
  have hlog := (Nat.le_log2 hne).2 hnum
  have hle := le_nearestPlace d.numerator d.denominator
  rw [hden, Nat.div_one] at hle
  rw [hden]
  refine Nat.le_trans (Nat.mul_le_mul_right _ ?_) hle
  simp only [leastPower, fractionWidth] at hlog ⊢
  omega

theorem nearestPlace_of_small {d : Decimal} (hs : d.exponent + d.coefficient.log2 < -400) :
    nearestPlace d.numerator d.denominator = 0 := by
  refine nearestPlace_eq_zero ?_
  have hc : d.coefficient < 2 ^ (d.coefficient.log2 + 1) := Nat.lt_log2_self
  have hnum : d.numerator = d.coefficient * 2 ^ leastPower := by
    rw [numerator, one, show d.exponent.toNat = 0 by omega, Nat.pow_zero, Nat.mul_one]
  calc 2 * d.numerator
      = d.coefficient * 2 ^ (leastPower + 1) := by
        rw [hnum, Nat.mul_comm, Nat.mul_assoc, ← Nat.pow_succ]
    _ < 2 ^ (d.coefficient.log2 + 1) * 2 ^ (leastPower + 1) :=
        Nat.mul_lt_mul_of_pos_right hc (Nat.two_pow_pos _)
    _ ≤ 2 ^ (3 * (-d.exponent).toNat) := by
        rw [← Nat.pow_add]
        refine Nat.pow_le_pow_right (by decide) ?_
        simp only [leastPower]
        omega
    _ ≤ d.denominator := two_pow_le_ten_pow _

/-- The bounds on the exponent agree with the rounding. -/
theorem toDouble_eq (negative : Bool) (d : Decimal) :
    d.toDouble negative = ofUnits negative d.numerator d.denominator := by
  by_cases hc : d.coefficient = 0
  · have hnum : d.numerator = 0 := by simp [numerator, hc]
    rw [hnum, ofUnits_zero negative d.denominator_pos, toDouble, if_pos hc]
  by_cases hl : 400 < d.exponent
  · have hplace := places_le_nearestPlace hc hl
    rw [toDouble, if_neg hc, if_pos hl, ofUnits, dif_neg (by omega)]
  by_cases hs : d.exponent + d.coefficient.log2 < -400
  · have hplace := nearestPlace_of_small hs
    rw [toDouble, if_neg hc, if_neg hl, if_pos hs]
    simp [ofUnits, hplace, signedZero]
  · exact toDouble_eq_ofUnits negative hc (by omega) (by omega)

/-- Zeros at the end of the coefficient may be moved to the exponent. -/
theorem toDouble_shift (negative : Bool) (c k : Nat) (e : Int) :
    toDouble negative ⟨c * 10 ^ k, e⟩ = toDouble negative ⟨c, e + k⟩ := by
  rw [toDouble_eq, toDouble_eq]
  refine ofUnits_congr negative (denominator_pos _) (denominator_pos _) ?_
  have hexp : k + e.toNat + (-(e + k)).toNat = (e + k).toNat + (-e).toNat := by omega
  have hpow : 10 ^ k * 10 ^ e.toNat * 10 ^ (-(e + k)).toNat =
      10 ^ (e + k).toNat * 10 ^ (-e).toNat := by
    rw [← Nat.pow_add, ← Nat.pow_add, ← Nat.pow_add, hexp]
  simp only [numerator, denominator]
  generalize one = u
  calc c * 10 ^ k * 10 ^ e.toNat * u * 10 ^ (-(e + k)).toNat
      = c * u * (10 ^ k * 10 ^ e.toNat * 10 ^ (-(e + k)).toNat) := by ac_rfl
    _ = c * 10 ^ (e + k).toNat * u * 10 ^ (-e).toNat := by
        rw [hpow]
        ac_rfl

theorem isNaN_toDouble (negative : Bool) (d : Decimal) : (d.toDouble negative).isNaN = false := by
  rw [toDouble_eq, ofUnits]
  split <;> rfl

end Decimal

end Flowsheet
