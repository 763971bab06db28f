import Flowsheet.Double.Basic

/-! Rounding of a quotient of natural numbers to the nearest finite number, a tie going to the even
place. A magnitude that is a finite number already is its own nearest one. -/

namespace Flowsheet.Double

open scoped NativePower

/-- The whole number nearest to `n / d`, the even one of two. -/
def roundQuotient (n d : Nat) : Nat :=
  let q := n / d
  let r := n % d
  if 2 * r < d then q else if d < 2 * r then q + 1 else q + q % 2

/-- The place nearest to `n / d` units. A significand that rounds up to the next power of
two carries into the next scale by itself, because places are counted through. -/
def nearestPlace (n d : Nat) : Nat :=
  let s := (n / d).log2 - fractionWidth
  roundQuotient n (d * 2 ^ s) + s * 2 ^ fractionWidth

/-- The number nearest to `n / d` units, infinite beyond the last place. -/
def ofUnits (negative : Bool) (n d : Nat) : Double :=
  if h : nearestPlace n d < places then .finite negative ⟨nearestPlace n d, h⟩
  else .infinite negative

def ofInt (n : Int) : Double :=
  ofUnits (n < 0) (n.natAbs * one) 1

theorem roundQuotient_mul (q : Nat) {d : Nat} (hd : 0 < d) : roundQuotient (q * d) d = q := by
  simp [roundQuotient, Nat.mul_div_cancel _ hd, hd]

theorem significand_add (place : Nat) :
    significand place + scale place * 2 ^ fractionWidth = place := by
  simp only [significand, scale, fractionWidth]
  omega

theorem significand_lt (place : Nat) : significand place < 2 ^ (fractionWidth + 1) := by
  simp only [significand, scale, fractionWidth]
  omega

theorem le_significand {place : Nat} (h : scale place ≠ 0) :
    2 ^ fractionWidth ≤ significand place := by
  simp only [significand, scale, fractionWidth] at *
  omega

theorem significand_pos {place : Nat} (h : scale place ≠ 0) : 0 < significand place :=
  Nat.lt_of_lt_of_le (Nat.two_pow_pos _) (le_significand h)

theorem log2_units (place : Nat) : (units place).log2 - fractionWidth = scale place := by
  by_cases h : scale place = 0
  · have hlt : units place < 2 ^ (fractionWidth + 1) := by
      rw [units, h, Nat.pow_zero, Nat.mul_one]
      exact significand_lt place
    by_cases hz : units place = 0
    · simp [hz, h]
    · have := (Nat.log2_lt hz).2 hlt
      omega
  · have hle := le_significand h
    have hpos : 0 < 2 ^ scale place := Nat.two_pow_pos _
    have hs := significand_pos h
    have hz : units place ≠ 0 := Nat.mul_ne_zero (by omega) (by omega)
    have hlt : units place < 2 ^ (fractionWidth + 1 + scale place) := by
      rw [Nat.pow_add, units]
      exact Nat.mul_lt_mul_of_pos_right (significand_lt place) hpos
    have hge : 2 ^ (fractionWidth + scale place) ≤ units place := by
      rw [Nat.pow_add, units]
      exact Nat.mul_le_mul_right _ hle
    have h1 := (Nat.log2_lt hz).2 hlt
    have h2 := (Nat.le_log2 hz).2 hge
    omega

theorem nearestPlace_units (place : Nat) {d : Nat} (hd : 0 < d) :
    nearestPlace (units place * d) d = place := by
  have hq : units place * d / d = units place := Nat.mul_div_cancel _ hd
  have hm : units place * d = significand place * (d * 2 ^ scale place) := by
    rw [units, Nat.mul_assoc, Nat.mul_comm (2 ^ scale place) d]
  have hpos : 0 < d * 2 ^ scale place := Nat.mul_pos hd (Nat.two_pow_pos _)
  simp only [nearestPlace, hq, log2_units]
  rw [hm, roundQuotient_mul _ hpos, significand_add]

theorem ofUnits_units (negative : Bool) (place : Fin places) {d : Nat} (hd : 0 < d) :
    ofUnits negative (units place * d) d = .finite negative place := by
  simp [ofUnits, nearestPlace_units place.val hd]

/-- A common factor of both terms does not matter. -/
theorem nearestPlace_mul (n : Nat) {d k : Nat} (hd : 0 < d) (hk : 0 < k) :
    nearestPlace (n * k) (d * k) = nearestPlace n d := by
  have hround : ∀ e, 0 < e → roundQuotient (n * k) (e * k) = roundQuotient n e := by
    intro e he
    have hdiv : n * k / (e * k) = n / e := Nat.mul_div_mul_right _ _ hk
    have hmod : n * k % (e * k) = n % e * k := Nat.mul_mod_mul_right ..
    have h1 : (2 * (n % e * k) < e * k) = (2 * (n % e) < e) := by
      rw [← Nat.mul_assoc, eq_iff_iff]
      exact Nat.mul_lt_mul_right hk
    have h2 : (e * k < 2 * (n % e * k)) = (e < 2 * (n % e)) := by
      rw [← Nat.mul_assoc, eq_iff_iff]
      exact Nat.mul_lt_mul_right hk
    simp only [roundQuotient, hdiv, hmod, h1, h2]
  simp only [nearestPlace, Nat.mul_div_mul_right _ _ hk]
  rw [Nat.mul_right_comm d k, hround _ (Nat.mul_pos hd (Nat.two_pow_pos _))]

end Flowsheet.Double
