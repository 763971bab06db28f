import Flowsheet.Double.Decimal

/-! The shortest decimal that reads back as a given number, and of several the nearest. For each
count of digits only two decimals can do so, the neighbours of the number among those. -/

namespace Flowsheet.Double

open scoped NativePower

def digitCount (n : Nat) : Nat :=
  (Nat.toDigits 10 n).length

/-- The power of ten of the first digit. Below one it is found on the reciprocal, whose quotient is
never a power of ten. -/
def leadingExponent (place : Nat) : Int :=
  if one ≤ units place then digitCount (units place / one) - 1
  else -digitCount (one / units place)

/-- The two neighbours among the multiples of `10 ^ exponent`, the nearer one first. -/
def neighbours (place : Nat) (exponent : Int) : List Decimal :=
  let n := units place * 10 ^ (-exponent).toNat
  let d := one * 10 ^ exponent.toNat
  let nearer := roundQuotient n d
  [⟨nearer, exponent⟩, ⟨2 * (n / d) + 1 - nearer, exponent⟩]

def readsAs (place : Nat) (d : Decimal) : Bool :=
  match d.toDouble false with
  | .finite _ p => p.val == place
  | _ => false

/-- A count of units with all its digits: halving it `power` times is multiplying by five as often
and moving the point. -/
def exactDecimal (n power : Nat) : Decimal :=
  ⟨n * 5 ^ power, -power⟩

def shortest (place : Nat) : Decimal :=
  let shortening := (List.range 17).findSome? fun n : Nat =>
    (neighbours place (leadingExponent place - n)).find? (readsAs place)
  shortening.getD (exactDecimal (units place) leastPower)

theorem units_ne_zero {place : Nat} (h : place ≠ 0) : units place ≠ 0 := by
  have hs := significand_add place
  have : significand place ≠ 0 := by
    by_cases h0 : scale place = 0
    · intro hz
      rw [hz, h0] at hs
      omega
    · have := significand_pos h0
      omega
  exact Nat.mul_ne_zero this (by have := Nat.two_pow_pos (scale place); omega)

theorem toDouble_exactDecimal {n power : Nat} (negative : Bool) (hn : n ≠ 0)
    (hone : one = 2 ^ power) :
    (exactDecimal n power).toDouble negative = ofUnits negative (n * 10 ^ power) (10 ^ power) := by
  have hc : n * 5 ^ power ≠ 0 :=
    Nat.mul_ne_zero hn (Nat.pos_iff_ne_zero.1 (Nat.pow_pos (by decide)))
  have hlog : power ≤ (n * 5 ^ power).log2 := by
    refine (Nat.le_log2 hc).2 (Nat.le_trans (Nat.pow_le_pow_left (by decide : 2 ≤ 5) power) ?_)
    exact Nat.le_mul_of_pos_left _ (by omega)
  have hten : (10 : Nat) ^ power = 5 ^ power * 2 ^ power := (Nat.mul_pow 5 2 power)
  rw [Decimal.toDouble_eq_ofUnits negative hc (by simp only [exactDecimal]; omega)
    (by simp only [exactDecimal]; omega)]
  have hnum : (exactDecimal n power).numerator = n * 10 ^ power := by
    have hz : (-(power : Int)).toNat = 0 := by omega
    simp [exactDecimal, Decimal.numerator, hone, hten, hz, Nat.mul_assoc]
  have hden : (exactDecimal n power).denominator = 10 ^ power := by
    simp [exactDecimal, Decimal.denominator]
  rw [hnum, hden]

theorem toDouble_of_readsAs {d : Decimal} {place : Fin places} (h : readsAs place d = true)
    (negative : Bool) : d.toDouble negative = .finite negative place := by
  have hfalse : d.toDouble false = .finite false place := by
    have hs := Decimal.isNegative_toDouble false d
    unfold readsAs at h
    split at h
    · next s p hp =>
      rw [hp] at hs ⊢
      rw [Fin.ext (eq_of_beq h), show s = false from hs]
    · simp at h
  cases negative with
  | false => exact hfalse
  | true => rw [Decimal.toDouble_true, hfalse, negate, Bool.not_false]

/-- The chosen decimal reads back as the number. -/
theorem toDouble_shortest (negative : Bool) {place : Fin places} (hplace : place.val ≠ 0) :
    (shortest place).toDouble negative = .finite negative place := by
  unfold shortest
  cases h : (List.range 17).findSome? fun n : Nat =>
      (neighbours place (leadingExponent place - n)).find? (readsAs place) with
  | none =>
    rw [Option.getD_none, toDouble_exactDecimal negative (units_ne_zero hplace) rfl]
    exact ofUnits_units negative place (Nat.pow_pos (by decide))
  | some d =>
    obtain ⟨n, _, hn⟩ := List.exists_of_findSome?_eq_some h
    exact toDouble_of_readsAs (List.find?_some hn) negative

end Flowsheet.Double
