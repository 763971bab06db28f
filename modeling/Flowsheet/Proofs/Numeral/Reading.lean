import Flowsheet.Proofs.Double.Decimal
import Flowsheet.Proofs.Numeral.Spelling

/-! The decimals that numerals stand for, part by part, and the digits of a natural number. -/

namespace Flowsheet.Numeral

open Text Double
open scoped NativePower

variable {digits whole fraction significand : List Char} {mark : Char}

theorem numberOfDigits_append (xs ys : List Char) :
    numberOfDigits (xs ++ ys) = numberOfDigits xs * 10 ^ ys.length + numberOfDigits ys := by
  have hfold : ∀ (ys : List Char) (n : Nat),
      ys.foldl (fun n c => 10 * n + digitValue c) n = n * 10 ^ ys.length + numberOfDigits ys := by
    intro ys
    induction ys with
    | nil => intro n; simp [numberOfDigits]
    | cons c ys ih =>
      intro n
      have hone := ih (digitValue c)
      rw [numberOfDigits, List.foldl_cons, List.foldl_cons, ih, Nat.mul_zero, Nat.zero_add, hone,
        List.length_cons, Nat.pow_succ', Nat.add_mul, Nat.mul_comm 10 n, Nat.mul_assoc,
        Nat.add_assoc]
  rw [numberOfDigits, List.foldl_append, hfold]
  rfl

theorem numberOfDigits_zeros (n : Nat) : numberOfDigits (zeros n) = 0 := by
  induction n with
  | zero => rfl
  | succ n ih =>
    rw [zeros, List.replicate_succ', numberOfDigits_append, ← zeros, ih, Nat.zero_mul]
    rfl

theorem numberOfDigits_append_zeros (digits : List Char) (n : Nat) :
    numberOfDigits (digits ++ zeros n) = numberOfDigits digits * 10 ^ n := by
  rw [numberOfDigits_append, numberOfDigits_zeros, zeros, List.length_replicate, Nat.add_zero]

theorem numberOfDigits_zeros_append (n : Nat) (digits : List Char) :
    numberOfDigits (zeros n ++ digits) = numberOfDigits digits := by
  rw [numberOfDigits_append, numberOfDigits_zeros, Nat.zero_mul, Nat.zero_add]

/-- Only zeros write zero, be they of one script or of several. -/
theorem numberOfDigits_eq_zero_iff : numberOfDigits digits = 0 ↔ ∀ c ∈ digits, digitValue c = 0 := by
  induction digits with
  | nil => simp [numberOfDigits]
  | cons c digits ih =>
    have hfirst : numberOfDigits [c] = digitValue c := by simp [numberOfDigits]
    have hpower : 10 ^ digits.length ≠ 0 := Nat.ne_of_gt (Nat.pow_pos (by decide))
    rw [← List.singleton_append, numberOfDigits_append, hfirst, Nat.add_eq_zero_iff,
      Nat.mul_eq_zero, or_iff_left hpower, ih, List.singleton_append, List.forall_mem_cons]

theorem digitValue_lt (c : Char) : digitValue c < 10 := by
  unfold digitValue digitValue?
  cases hz : digitZeros.find? fun z => z ≤ c.toNat && c.toNat < z + 10 with
  | none => simp
  | some z =>
    have hrange := List.find?_some hz
    simp only [Bool.and_eq_true, decide_eq_true_eq] at hrange
    simp only [Option.map_some, Option.getD_some]
    omega

theorem numberOfDigits_lt (digits : List Char) : numberOfDigits digits < 10 ^ digits.length := by
  induction digits with
  | nil => exact Nat.one_pos
  | cons c digits ih =>
    have hfirst : numberOfDigits [c] = digitValue c := by simp [numberOfDigits]
    have hc := digitValue_lt c
    calc numberOfDigits (c :: digits)
        = digitValue c * 10 ^ digits.length + numberOfDigits digits := by
          rw [← List.singleton_append, numberOfDigits_append, hfirst]
      _ < (digitValue c + 1) * 10 ^ digits.length := by
          rw [Nat.add_mul, Nat.one_mul]
          exact Nat.add_lt_add_left ih _
      _ ≤ 10 * 10 ^ digits.length := Nat.mul_le_mul_right _ hc
      _ = 10 ^ (c :: digits).length := by rw [List.length_cons, Nat.pow_succ, Nat.mul_comm]

theorem digitValue?_digitChar {n : Nat} (hn : n < 10) :
    digitValue? (Nat.digitChar n) = some n := by
  have hall : ∀ n < 10, digitValue? (Nat.digitChar n) = some n := by decide
  exact hall n hn

theorem numberOfDigits_decimalDigits (n : Nat) : numberOfDigits (decimalDigits n) = n := by
  induction n using Nat.strongRecOn with
  | ind n ih =>
    unfold decimalDigits
    by_cases hn : n < 10
    · simp [Nat.toDigits_of_lt_base hn, numberOfDigits, digitValue, digitValue?_digitChar hn]
    · have hlast : numberOfDigits [Nat.digitChar (n % 10)] = n % 10 := by
        simp [numberOfDigits, digitValue, digitValue?_digitChar (Nat.mod_lt n (by decide))]
      have hfront := ih (n / 10) (by omega)
      rw [decimalDigits] at hfront
      rw [Nat.toDigits_of_base_le (by decide) (by omega), numberOfDigits_append, hfront, hlast,
        List.length_singleton, Nat.pow_one]
      omega

theorem allDigits_decimalDigits (n : Nat) : AllDigits (decimalDigits n) := by
  induction n using Nat.strongRecOn with
  | ind n ih =>
    unfold decimalDigits
    have hdigit : ∀ m < 10, isDigit (Nat.digitChar m) = true := fun m hm => by
      rw [isDigit, digitValue?_digitChar hm, Option.isSome_some]
    by_cases hn : n < 10
    · rw [Nat.toDigits_of_lt_base hn]
      intro c hc
      rw [List.mem_singleton.mp hc]
      exact hdigit n hn
    · rw [Nat.toDigits_of_base_le (by decide) (by omega)]
      intro c hc
      rcases List.mem_append.mp hc with hc | hc
      · exact ih (n / 10) (by omega) c hc
      · rw [List.mem_singleton.mp hc]
        exact hdigit _ (Nat.mod_lt n (by decide))

theorem decimalDigits_ne_nil (n : Nat) : decimalDigits n ≠ [] :=
  List.length_pos_iff.mp Nat.length_toDigits_pos

theorem allDigits_zeros (n : Nat) : AllDigits (zeros n) := by
  intro c hc
  rw [List.eq_of_mem_replicate hc]
  exact isDigit_zero

theorem AllDigits.append {xs ys : List Char} (hx : AllDigits xs) (hy : AllDigits ys) :
    AllDigits (xs ++ ys) :=
  fun c hc => (List.mem_append.mp hc).elim (hx c) (hy c)

theorem AllDigits.noMark (hd : AllDigits digits) : ∀ c ∈ digits, (!isExponentMark c) = true :=
  fun c hc => by rw [not_isExponentMark_of_isDigit (hd c hc), Bool.not_false]

theorem AllDigits.noPoint (hd : AllDigits digits) : ∀ c ∈ digits, (c != '.') = true :=
  fun c hc => by simpa using ne_of_isDigit (hd c hc) not_isDigit_point

theorem noMark_pointed (hw : AllDigits whole) (hf : AllDigits fraction) :
    ∀ c ∈ whole ++ '.' :: fraction, (!isExponentMark c) = true := by
  intro c hc
  rcases List.mem_append.mp hc with hc | hc
  · exact hw.noMark c hc
  · rcases List.mem_cons.mp hc with rfl | hc
    · rfl
    · exact hf.noMark c hc

theorem IsSignificand.noMark (hs : IsSignificand significand) :
    ∀ c ∈ significand, (!isExponentMark c) = true := by
  cases hs with
  | whole digits _ hd => exact hd.noMark
  | pointed whole fraction _ hw hf => exact noMark_pointed hw hf
  | fraction digits _ hd => exact noMark_pointed (List.forall_mem_nil _) hd

def wholePart (significand : List Char) : List Char :=
  significand.takeWhile (· != '.')

def fractionPart (significand : List Char) : List Char :=
  (significand.dropWhile (· != '.')).drop 1

theorem parts_of_digits (hd : AllDigits digits) :
    wholePart digits = digits ∧ fractionPart digits = [] := by
  have htake := @List.takeWhile_append_of_pos _ _ digits [] hd.noPoint
  have hdrop := @List.dropWhile_append_of_pos _ _ digits [] hd.noPoint
  rw [List.append_nil] at htake hdrop
  simp [wholePart, fractionPart, htake, hdrop]

theorem parts_of_pointed (hw : AllDigits whole) :
    wholePart (whole ++ '.' :: fraction) = whole ∧
      fractionPart (whole ++ '.' :: fraction) = fraction := by
  rw [wholePart, fractionPart, List.takeWhile_append_of_pos hw.noPoint,
    List.dropWhile_append_of_pos hw.noPoint]
  simp

theorem decimal_append {significand : List Char}
    (hs : ∀ c ∈ significand, (!isExponentMark c) = true) (exponent : List Char)
    (he : ∀ c ∈ exponent.head?, isExponentMark c = true) :
    decimal (significand ++ exponent) =
      ⟨numberOfDigits (wholePart significand ++ fractionPart significand),
        exponentValue (exponent.drop 1) - (fractionPart significand).length⟩ := by
  have hstop : exponent.takeWhile (fun c => !isExponentMark c) = [] ∧
      exponent.dropWhile (fun c => !isExponentMark c) = exponent := by
    cases exponent with
    | nil => exact ⟨rfl, rfl⟩
    | cons mark tail => simp [he mark rfl]
  simp only [decimal, List.takeWhile_append_of_pos hs, List.dropWhile_append_of_pos hs, hstop,
    List.append_nil]
  rfl

theorem decimal_digits (hd : AllDigits digits) : decimal digits = ⟨numberOfDigits digits, 0⟩ := by
  have h := decimal_append hd.noMark [] (by simp)
  rw [List.append_nil, (parts_of_digits hd).1, (parts_of_digits hd).2, List.append_nil] at h
  exact h

theorem decimal_pointed (hw : AllDigits whole) (hf : AllDigits fraction) :
    decimal (whole ++ '.' :: fraction) =
      ⟨numberOfDigits (whole ++ fraction), -fraction.length⟩ := by
  have h := decimal_append (noMark_pointed hw hf) [] (by simp)
  rw [List.append_nil, (parts_of_pointed hw).1, (parts_of_pointed hw).2] at h
  rw [h]
  simp [exponentValue, splitSign, numberOfDigits]

theorem decimal_power (hs : ∀ c ∈ significand, (!isExponentMark c) = true)
    (hm : isExponentMark mark = true) (tail : List Char) :
    decimal (significand ++ mark :: tail) =
      ⟨(decimal significand).coefficient, (decimal significand).exponent + exponentValue tail⟩ := by
  have h := decimal_append hs [] (by simp)
  rw [List.append_nil] at h
  rw [decimal_append hs (mark :: tail) (by rintro c ⟨⟩; exact hm), h]
  simp [exponentValue, splitSign, numberOfDigits]
  omega

end Flowsheet.Numeral
