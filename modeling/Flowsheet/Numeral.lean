import Flowsheet.Double.Notation
import Flowsheet.Text.DecimalDigit

/-! Unsigned decimal numerals: digits with or without a point among or around them, and then perhaps
an exponent. A numeral at the head of a text extends as far as it can. -/

namespace Flowsheet.Numeral

open Text
open scoped NativePower

def splitDigits (cs : List Char) : List Char × List Char :=
  (cs.takeWhile isDigit, cs.dropWhile isDigit)

def splitSignificand (cs : List Char) : Option (List Char × List Char) :=
  match splitDigits cs with
  | ([], _) =>
    match cs with
    | '.' :: rest =>
      match splitDigits rest with
      | ([], _) => none
      | (fraction, after) => some ('.' :: fraction, after)
    | _ => none
  | (whole, '.' :: rest) => some (whole ++ '.' :: (splitDigits rest).1, (splitDigits rest).2)
  | (whole, rest) => some (whole, rest)

def splitSign : List Char → List Char × List Char
  | '+' :: rest => (['+'], rest)
  | '-' :: rest => (['-'], rest)
  | rest => ([], rest)

def isExponentMark (c : Char) : Bool :=
  c == 'e' || c == 'E'

/-- A mark that no digit follows belongs to what comes after the numeral. -/
def splitExponent (cs : List Char) : List Char × List Char :=
  match cs with
  | mark :: rest =>
    if isExponentMark mark then
      let signed := splitSign rest
      match splitDigits signed.2 with
      | ([], _) => ([], cs)
      | (digits, after) => (mark :: signed.1 ++ digits, after)
    else ([], cs)
  | [] => ([], [])

/-- The longest numeral that the text begins with, and the rest of the text. -/
def split? (cs : List Char) : Option (List Char × List Char) :=
  (splitSignificand cs).map fun p => (p.1 ++ (splitExponent p.2).1, (splitExponent p.2).2)

theorem splitDigits_append (cs : List Char) :
    (splitDigits cs).1 ++ (splitDigits cs).2 = cs :=
  List.takeWhile_append_dropWhile

theorem splitSignificand_append {cs significand rest : List Char}
    (h : splitSignificand cs = some (significand, rest)) :
    significand ++ rest = cs ∧ significand ≠ [] := by
  have hcs := splitDigits_append cs
  unfold splitSignificand at h
  split at h
  · split at h
    · next tail _ =>
      have htail := splitDigits_append tail
      split at h
      · simp at h
      · next heq =>
        cases h
        simp_all
    · simp at h
  · next tail _ heq =>
    have htail := splitDigits_append tail
    cases h
    simp_all
  · next hne _ heq =>
    cases h
    simp only [heq] at hcs
    exact ⟨hcs, hne⟩

theorem splitSign_append (cs : List Char) : (splitSign cs).1 ++ (splitSign cs).2 = cs := by
  unfold splitSign
  split <;> rfl

theorem splitExponent_append (cs : List Char) :
    (splitExponent cs).1 ++ (splitExponent cs).2 = cs := by
  unfold splitExponent
  split
  · next mark tail =>
    split
    · have hsign := splitSign_append tail
      have hdigits := splitDigits_append (splitSign tail).2
      dsimp only
      split
      · rfl
      · next heq =>
        simp only [heq] at hdigits
        rw [← hdigits] at hsign
        simpa using hsign
    · rfl
  · rfl

/-- A numeral and the rest make up the text, and no numeral is empty. -/
theorem split?_append {cs numeral rest : List Char} (h : split? cs = some (numeral, rest)) :
    numeral ++ rest = cs ∧ numeral ≠ [] := by
  obtain ⟨⟨significand, after⟩, hs, he⟩ := Option.map_eq_some_iff.1 h
  obtain ⟨happend, hne⟩ := splitSignificand_append hs
  cases he
  refine ⟨?_, by simp [hne]⟩
  rw [List.append_assoc, splitExponent_append, happend]

def exponentValue (cs : List Char) : Int :=
  match splitSign cs with
  | (['-'], digits) => -numberOfDigits digits
  | (_, digits) => numberOfDigits digits

/-- What a numeral stands for. -/
def decimal (numeral : List Char) : Decimal :=
  let significand := numeral.takeWhile fun c => !isExponentMark c
  let exponent := (numeral.dropWhile fun c => !isExponentMark c).drop 1
  let whole := significand.takeWhile (· != '.')
  let fraction := (significand.dropWhile (· != '.')).drop 1
  ⟨numberOfDigits (whole ++ fraction), exponentValue exponent - fraction.length⟩

def value (negative : Bool) (numeral : List Char) : Double :=
  (decimal numeral).toDouble negative

def infinityName : List Char := ['I', 'n', 'f', 'i', 'n', 'i', 't', 'y']

def nanName : List Char := ['N', 'a', 'N']

/-- The most digits that a whole number is written with in full. -/
abbrev fullDigits : Nat := 21

/-- The text of a number inside an expression: whole numbers in full and without a point, unless
they are too long, and all others in their shortest text. -/
def render (x : Double) : List Char :=
  match x with
  | .nan _ => nanName
  | .infinite negative => Double.signText negative ++ infinityName
  | .finite .. =>
    match x.whole? with
    | some n =>
      if n.natAbs < 10 ^ fullDigits then
        Double.signText (n < 0) ++ Double.decimalDigits n.natAbs
      else x.text.toList
    | none => x.text.toList

end Flowsheet.Numeral
