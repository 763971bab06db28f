import Flowsheet.Expression.Parser
import Flowsheet.Proofs.Numeral.Reading

/-! The text of a number is a sign, if the number is below zero, and then a numeral that is read
back as its magnitude. -/

namespace Flowsheet

namespace Double

def magnitude : Double → Double
  | .nan payload => .nan payload
  | .infinite _ => .infinite false
  | .finite _ place => .finite false place

/-- The number itself, except that the negative zero becomes the other one. -/
def unsignedZero (x : Double) : Double :=
  if x.isZero then .zero else x

theorem unsignedZero_eq (x : Double) :
    x.unsignedZero = if x.isBelowZero then x.magnitude.negate else x.magnitude := by
  cases x with
  | nan payload => rfl
  | infinite negative => cases negative <;> rfl
  | finite negative place =>
    by_cases hp : place.val = 0
    · have hplace : place = ⟨0, places_pos⟩ := Fin.ext hp
      simp [unsignedZero, isZero, isBelowZero, magnitude, zero, signedZero, hplace]
    · cases negative <;>
        simp [unsignedZero, isZero, isBelowZero, isNegative, magnitude, negate, hp]

end Double

namespace Numeral

open Text Double Expression
open scoped NativePower

variable {digits : List Char} {x : Double}

theorem length_zeros (n : Nat) : (zeros n).length = n :=
  List.length_replicate

theorem dropEndZeros_append {all : List Char} (hne : all ≠ []) :
    ∃ n, all = dropEndZeros all ++ zeros n := by
  have hsplit : all = (all.reverse.dropWhile (· == '0')).reverse ++
      (all.reverse.takeWhile (· == '0')).reverse := by
    rw [← List.reverse_append, List.takeWhile_append_dropWhile, List.reverse_reverse]
  have hzeros : (all.reverse.takeWhile (· == '0')).reverse =
      zeros (all.reverse.takeWhile (· == '0')).length := by
    refine List.eq_replicate_iff.mpr ⟨List.length_reverse, fun c hc => ?_⟩
    exact eq_of_beq (List.all_eq_true.mp List.all_takeWhile c (List.mem_reverse.mp hc))
  rw [hzeros] at hsplit
  unfold dropEndZeros
  split
  · next hnil =>
    rw [hnil, List.nil_append] at hsplit
    generalize (all.reverse.takeWhile (· == '0')).length = n at hsplit
    cases n with
    | zero => exact absurd hsplit hne
    | succ n => exact ⟨n, hsplit⟩
  · exact ⟨_, hsplit⟩

theorem dropEndZeros_ne_nil (all : List Char) : dropEndZeros all ≠ [] := by
  unfold dropEndZeros
  split
  · exact List.cons_ne_nil _ _
  · assumption

theorem allDigits_dropEndZeros {all : List Char} (hd : AllDigits all) :
    AllDigits (dropEndZeros all) := by
  unfold dropEndZeros
  split
  · exact allDigits_zeros 1
  · intro c hc
    exact hd c (List.mem_reverse.mp (List.dropWhile_subset _ (List.mem_reverse.mp hc)))

/-- The text of digits stands for them with the point after as many of them as the power of ten of
the first one tells. -/
structure Spells (text : List Char) (digits : List Char) (lead : Int) : Prop where
  isNumeral : IsNumeral text
  value_eq : value false text =
    (⟨numberOfDigits digits, lead + 1 - digits.length⟩ : Decimal).toDouble false

theorem spells_pointed {whole fraction : List Char} {lead : Int} {n : Nat} (hne : whole ≠ [])
    (hw : AllDigits whole) (hf : AllDigits fraction)
    (hdigits : numberOfDigits (whole ++ fraction) = numberOfDigits digits * 10 ^ n)
    (hlead : (n : Int) - fraction.length = lead + 1 - digits.length) :
    Spells (whole ++ '.' :: fraction) digits lead where
  isNumeral := by
    have h := IsNumeral.intro _ _ (.pointed whole fraction hne hw hf) .absent
    rwa [List.append_nil] at h
  value_eq := by
    rw [value, decimal_pointed hw hf, hdigits, Decimal.toDouble_shift, ← hlead, Int.add_comm,
      Int.sub_eq_add_neg]

theorem spells_positional (lead : Int) (hne : digits ≠ []) (hd : AllDigits digits) :
    Spells (positional digits lead) digits lead := by
  unfold positional
  split
  · next hlt =>
    have hnum : numberOfDigits (['0'] ++ (zeros (-lead - 1).toNat ++ digits)) =
        numberOfDigits digits * 10 ^ 0 := by
      rw [← List.append_assoc, show ['0'] = zeros 1 from rfl, List.append_assoc,
        numberOfDigits_zeros_append, numberOfDigits_zeros_append, Nat.pow_zero, Nat.mul_one]
    refine spells_pointed (List.cons_ne_nil _ _) (allDigits_zeros 1)
      ((allDigits_zeros _).append hd) hnum ?_
    have hlen : (zeros (-lead - 1).toNat ++ digits).length = (-lead - 1).toNat + digits.length := by
      rw [List.length_append, length_zeros]
    change (0 : Int) - (zeros (-lead - 1).toNat ++ digits).length = _
    omega
  · next hge =>
    dsimp only
    have hparts := List.take_append_drop (lead.toNat + 1) digits
    split
    · next hnil =>
      have hlen : digits.length ≤ lead.toNat + 1 := List.drop_eq_nil_iff.mp hnil
      have hnum : numberOfDigits (digits ++ zeros (lead.toNat + 1 - digits.length) ++ ['0']) =
          numberOfDigits digits * 10 ^ (lead.toNat + 1 - digits.length + 1) := by
        rw [show ['0'] = zeros 1 from rfl, numberOfDigits_append_zeros,
          numberOfDigits_append_zeros, Nat.mul_assoc, ← Nat.pow_add]
      refine spells_pointed (List.append_ne_nil_of_left_ne_nil hne _)
        (hd.append (allDigits_zeros _)) (show AllDigits ['0'] from allDigits_zeros 1) hnum ?_
      rw [List.length_singleton]
      omega
    · next hcons =>
      have hlen : lead.toNat + 1 < digits.length := by
        have hpos := List.length_pos_iff.mpr hcons
        rw [List.length_drop] at hpos
        omega
      have hnum : numberOfDigits (digits.take (lead.toNat + 1) ++ digits.drop (lead.toNat + 1)) =
          numberOfDigits digits * 10 ^ 0 := by
        rw [hparts, Nat.pow_zero, Nat.mul_one]
      refine spells_pointed ?_ (fun c hc => hd c (List.mem_of_mem_take hc))
        (fun c hc => hd c (List.mem_of_mem_drop hc)) hnum ?_
      · exact fun hnil => (List.take_eq_nil_iff.mp hnil).elim (by omega) hne
      · rw [List.length_drop]
        omega

def exponentSign (lead : Int) : List Char :=
  [if lead < 0 then '-' else '+']

def exponentDigits (lead : Int) : List Char :=
  zeros (2 - (decimalDigits lead.natAbs).length) ++ decimalDigits lead.natAbs

def mantissa : List Char → List Char
  | first :: second :: rest => first :: '.' :: second :: rest
  | digits => digits

theorem scientific_eq (digits : List Char) (lead : Int) :
    scientific digits lead =
      mantissa digits ++ 'e' :: (exponentSign lead ++ exponentDigits lead) := by
  unfold scientific mantissa exponentSign exponentDigits
  rcases digits with _ | ⟨first, _ | ⟨second, rest⟩⟩ <;> simp

theorem exponentValue_eq (lead : Int) :
    exponentValue (exponentSign lead ++ exponentDigits lead) = lead := by
  have hdigits : numberOfDigits (exponentDigits lead) = lead.natAbs := by
    rw [exponentDigits, numberOfDigits_zeros_append, numberOfDigits_decimalDigits]
  by_cases hlead : lead < 0
  · rw [exponentSign, if_pos hlead, List.singleton_append]
    change -(numberOfDigits (exponentDigits lead) : Int) = lead
    omega
  · rw [exponentSign, if_neg hlead, List.singleton_append]
    change (numberOfDigits (exponentDigits lead) : Int) = lead
    omega

theorem isExponent_of_lead (lead : Int) :
    IsExponent ('e' :: exponentSign lead ++ exponentDigits lead) := by
  refine .power 'e' _ _ rfl ?_ ?_ ?_
  · unfold exponentSign
    split <;> simp
  · exact List.append_ne_nil_of_right_ne_nil _ (decimalDigits_ne_nil _)
  · exact (allDigits_zeros _).append (allDigits_decimalDigits _)

theorem isSignificand_mantissa (hne : digits ≠ []) (hd : AllDigits digits) :
    IsSignificand (mantissa digits) := by
  unfold mantissa
  split
  · next first second rest =>
    exact .pointed [first] (second :: rest) (List.cons_ne_nil _ _)
      (fun c hc => hd c (List.mem_singleton.mp hc ▸ List.mem_cons_self))
      (fun c hc => hd c (List.mem_cons_of_mem _ hc))
  · exact .whole digits hne hd

theorem decimal_mantissa (hne : digits ≠ []) (hd : AllDigits digits) :
    decimal (mantissa digits) = ⟨numberOfDigits digits, 1 - digits.length⟩ := by
  unfold mantissa
  split
  · next first second rest =>
    have hw : AllDigits [first] :=
      fun c hc => hd c (List.mem_singleton.mp hc ▸ List.mem_cons_self)
    have hf : AllDigits (second :: rest) := fun c hc => hd c (List.mem_cons_of_mem _ hc)
    have hexponent : -((second :: rest).length : Int) = 1 - (first :: second :: rest).length := by
      simp only [List.length_cons]
      omega
    exact (decimal_pointed hw hf).trans (congrArg (Decimal.mk _) hexponent)
  · next hshort =>
    obtain ⟨first, rest, rfl⟩ := List.exists_cons_of_ne_nil hne
    cases rest with
    | nil => exact decimal_digits hd
    | cons second rest => exact absurd rfl (hshort first second rest)

theorem spells_scientific (lead : Int) (hne : digits ≠ []) (hd : AllDigits digits) :
    Spells (scientific digits lead) digits lead where
  isNumeral := by
    rw [scientific_eq]
    exact .intro _ _ (isSignificand_mantissa hne hd) (isExponent_of_lead lead)
  value_eq := by
    rw [value, scientific_eq, decimal_power (isSignificand_mantissa hne hd).noMark rfl,
      exponentValue_eq, decimal_mantissa hne hd]
    exact congrArg (fun e => Decimal.toDouble false ⟨numberOfDigits digits, e⟩)
      (by dsimp only; omega)

theorem decimalText_spec (d : Decimal) :
    IsNumeral (decimalText d) ∧ value false (decimalText d) = d.toDouble false := by
  have hne := dropEndZeros_ne_nil (decimalDigits d.coefficient)
  have hd := allDigits_dropEndZeros (allDigits_decimalDigits d.coefficient)
  obtain ⟨n, hn⟩ := dropEndZeros_append (decimalDigits_ne_nil d.coefficient)
  have hlen := congrArg List.length hn
  rw [List.length_append, length_zeros] at hlen
  have hspells : Spells (decimalText d) (dropEndZeros (decimalDigits d.coefficient))
      (d.exponent + (decimalDigits d.coefficient).length - 1) := by
    unfold decimalText
    dsimp only
    split
    · exact spells_positional _ hne hd
    · exact spells_scientific _ hne hd
  refine ⟨hspells.isNumeral, ?_⟩
  have hcoefficient : d.coefficient =
      numberOfDigits (dropEndZeros (decimalDigits d.coefficient)) * 10 ^ n := by
    rw [← numberOfDigits_append_zeros, ← hn, numberOfDigits_decimalDigits]
  calc value false (decimalText d)
      = Decimal.toDouble false
          ⟨numberOfDigits (dropEndZeros (decimalDigits d.coefficient)), d.exponent + n⟩ := by
        rw [hspells.value_eq]
        congr 2
        omega
    _ = d.toDouble false := by
        rw [← Decimal.toDouble_shift, ← hcoefficient]

-- The count of units in one is a power that is never to be computed.
attribute [local irreducible] one

theorem numberValue_of_isNumeral {numeral : List Char} (hn : IsNumeral numeral) :
    numberValue numeral = value false numeral := by
  rw [numberValue, if_neg (hn.ne_of_split?_eq_none rfl), if_neg (hn.ne_of_split?_eq_none rfl)]

theorem natAbs_signed (negative : Bool) (n : Nat) : (signed negative n).natAbs = n := by
  cases negative <;> simp [signed]

theorem units_eq_zero_iff {place : Nat} : units place = 0 ↔ place = 0 := by
  refine ⟨fun hu => Decidable.by_contra fun hp => units_ne_zero hp hu, ?_⟩
  rintro rfl
  rw [units, significand, Nat.zero_sub, Nat.zero_mul]

theorem div_one_eq_zero_iff {place : Nat} (hw : units place % one = 0) :
    units place / one = 0 ↔ place = 0 := by
  constructor
  · intro hq
    have hunits := Nat.div_add_mod (units place) one
    rw [hq, hw, Nat.mul_zero] at hunits
    exact units_eq_zero_iff.mp hunits.symm
  · intro hp
    rw [units_eq_zero_iff.mpr hp, Nat.zero_div]

theorem signed_lt_zero (negative : Bool) (n : Nat) :
    decide (signed negative n < 0) = (negative && !(n == 0)) := by
  cases negative <;> cases n <;> simp [signed] <;> omega

theorem toList_text_finite (negative : Bool) {place : Fin places} (hp : place.val ≠ 0) :
    (text (.finite negative place)).toList =
      signText negative ++ decimalText (shortest place) := by
  simp only [text, if_neg hp, String.toList_ofList]

/-- The numeral of a finite magnitude: in full if it is whole and not too long. -/
def finiteText (place : Nat) : List Char :=
  if units place % one = 0 ∧ units place / one < 10 ^ fullDigits then
    decimalDigits (units place / one)
  else decimalText (shortest place)

theorem render_of_whole? {n : Int} (hx : x.whole? = some n) : render x =
    if n.natAbs < 10 ^ fullDigits then signText (n < 0) ++ decimalDigits n.natAbs
    else x.text.toList := by
  unfold render
  rw [hx]
  cases x with
  | finite negative place => rfl
  | nan payload => cases hx
  | infinite negative => cases hx

theorem render_of_not_whole {negative : Bool} {place : Fin places}
    (hfinite : x = .finite negative place) (hx : x.whole? = none) : render x = x.text.toList := by
  unfold render
  rw [hx, hfinite]

theorem render_finite (negative : Bool) (place : Fin places) :
    render (.finite negative place) =
      signText (negative && !(place.val == 0)) ++ finiteText place := by
  have hsign : place.val ≠ 0 → (negative && !(place.val == 0)) = negative := by
    intro hp
    simp [hp]
  unfold finiteText
  by_cases hw : units place % one = 0
  · have hwhole : whole? (.finite negative place) = some (signed negative (units place / one)) :=
      if_pos hw
    have hzero : (units place / one == 0) = (place.val == 0) := by
      rw [Bool.eq_iff_iff, beq_iff_eq, beq_iff_eq, div_one_eq_zero_iff hw]
    rw [render_of_whole? hwhole, natAbs_signed, signed_lt_zero, hzero]
    by_cases hshort : units place / one < 10 ^ fullDigits
    · rw [if_pos hshort, if_pos ⟨hw, hshort⟩]
    · have hp : place.val ≠ 0 := by
        rw [ne_eq, ← div_one_eq_zero_iff hw]
        intro hq
        exact hshort (hq ▸ Nat.pow_pos (by decide))
      rw [if_neg hshort, if_neg (fun h => hshort h.2), toList_text_finite negative hp, hsign hp]
  · have hp : place.val ≠ 0 := by
      intro hp
      rw [units_eq_zero_iff.mpr hp, Nat.zero_mod] at hw
      exact hw rfl
    have hnone : whole? (.finite negative place) = none := if_neg hw
    rw [render_of_not_whole rfl hnone, toList_text_finite negative hp, hsign hp,
      if_neg (fun h => hw h.1)]

theorem toDouble_whole {place : Fin places} (hw : units place % one = 0) :
    (⟨units place / one, 0⟩ : Decimal).toDouble false = .finite false place := by
  have hnum : (⟨units place / one, 0⟩ : Decimal).numerator = units place * 1 := by
    change units place / one * 10 ^ 0 * one = units place * 1
    rw [Nat.pow_zero, Nat.mul_one, Nat.mul_one,
      Nat.div_mul_cancel (Nat.dvd_of_mod_eq_zero hw)]
  rw [Decimal.toDouble_eq, hnum]
  exact ofUnits_units false place Nat.one_pos

theorem finiteText_spec (place : Fin places) :
    IsNumeral (finiteText place) ∧ value false (finiteText place) = .finite false place := by
  unfold finiteText
  split
  · next h =>
    have hd := allDigits_decimalDigits (units place / one)
    have hn := IsNumeral.intro _ _ (.whole _ (decimalDigits_ne_nil (units place / one)) hd) .absent
    rw [List.append_nil] at hn
    refine ⟨hn, ?_⟩
    rw [value, decimal_digits hd, numberOfDigits_decimalDigits, toDouble_whole h.1]
  · next h =>
    have hp : place.val ≠ 0 := by
      intro hp
      refine h ⟨?_, ?_⟩
      · rw [units_eq_zero_iff.mpr hp, Nat.zero_mod]
      · rw [units_eq_zero_iff.mpr hp, Nat.zero_div]
        exact Nat.pow_pos (by decide)
    obtain ⟨hn, hvalue⟩ := decimalText_spec (shortest place)
    exact ⟨hn, hvalue.trans (toDouble_shortest false hp)⟩

theorem render_magnitude_finite (negative : Bool) (place : Fin places) :
    render (magnitude (.finite negative place)) = finiteText place := by
  have hsign : signText (false && !(place.val == 0)) = [] := rfl
  rw [magnitude, render_finite, hsign, List.nil_append]

theorem render_eq (hx : x.isNaN = false) :
    render x = signText x.isBelowZero ++ render x.magnitude := by
  cases x with
  | nan payload => cases hx
  | infinite negative => cases negative <;> rfl
  | finite negative place =>
    rw [render_magnitude_finite, render_finite, isBelowZero, isNegative, isZero]

theorem isNumber_render_magnitude (hx : x.isNaN = false) : IsNumber (render x.magnitude) := by
  cases x with
  | nan payload => cases hx
  | infinite negative => exact .infinity
  | finite negative place =>
    rw [render_magnitude_finite]
    exact .numeral _ (finiteText_spec place).1

theorem numberValue_render_magnitude (hx : x.isNaN = false) :
    numberValue (render x.magnitude) = x.magnitude := by
  cases x with
  | nan payload => cases hx
  | infinite negative => rfl
  | finite negative place =>
    obtain ⟨hn, hvalue⟩ := finiteText_spec place
    rw [render_magnitude_finite]
    exact (numberValue_of_isNumeral hn).trans hvalue

end Numeral

end Flowsheet
