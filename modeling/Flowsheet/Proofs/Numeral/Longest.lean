import Flowsheet.Proofs.Numeral.Spelling

/-! A numeral extends as far as it can: whatever numeral a text begins with, the one that is split
off it is no shorter. -/

namespace Flowsheet.Numeral

open Text

variable {digits significand exponent numeral : List Char}

theorem length_le_splitDigits (hd : AllDigits digits) (rest : List Char) :
    digits.length ≤ (splitDigits (digits ++ rest)).1.length := by
  rw [splitDigits, List.takeWhile_append_of_pos hd, List.length_append]
  omega

theorem exists_longer_digits (hne : digits ≠ []) (hd : AllDigits digits) (rest : List Char) :
    ∃ first others after, splitDigits (digits ++ rest) = (first :: others, after) ∧
      digits.length ≤ (first :: others).length := by
  have hle := length_le_splitDigits hd rest
  have hpos := List.length_pos_iff.mpr hne
  generalize splitDigits (digits ++ rest) = split at hle ⊢
  obtain ⟨longer, after⟩ := split
  cases longer with
  | nil => exact absurd (Nat.lt_of_lt_of_le hpos hle) (Nat.lt_irrefl 0)
  | cons first others => exact ⟨first, others, after, rfl, hle⟩

theorem exists_longer_significand (hs : IsSignificand significand) (rest : List Char) :
    ∃ longer after, splitSignificand (significand ++ rest) = some (longer, after) ∧
      significand.length ≤ longer.length := by
  have hpoint : ∀ cs, NoDigit ('.' :: cs) := by
    rintro cs c ⟨⟩
    exact not_isDigit_point
  cases hs with
  | whole digits hne hd =>
    obtain ⟨first, others, after, hsplit, hle⟩ := exists_longer_digits hne hd rest
    unfold splitSignificand
    rw [hsplit]
    -- A point after the digits makes the significand longer still.
    split
    · next heq => cases heq
    · next heq =>
      cases heq
      exact ⟨_, _, rfl, Nat.le_trans hle (by simp)⟩
    · next heq =>
      cases heq
      exact ⟨_, _, rfl, hle⟩
  | pointed whole fraction hne hw hf =>
    obtain ⟨first, others, rfl⟩ := List.exists_cons_of_ne_nil hne
    have happend : first :: others ++ '.' :: fraction ++ rest =
        first :: others ++ '.' :: (fraction ++ rest) := List.append_assoc ..
    have hle := length_le_splitDigits hf rest
    unfold splitSignificand
    rw [happend, splitDigits_append_of_allDigits hw (hpoint _)]
    refine ⟨_, _, rfl, ?_⟩
    simp only [List.length_append, List.length_cons]
    omega
  | fraction digits hne hd =>
    obtain ⟨first, others, after, hsplit, hle⟩ := exists_longer_digits hne hd rest
    unfold splitSignificand
    rw [List.cons_append, splitDigits_of_noDigit (hpoint _)]
    simp only [hsplit]
    exact ⟨_, _, rfl, Nat.succ_le_succ hle⟩

theorem length_le_splitExponent (he : IsExponent exponent) (rest : List Char) :
    exponent.length ≤ (splitExponent (exponent ++ rest)).1.length := by
  cases he with
  | absent => exact Nat.zero_le _
  | power mark sign digits hm hs hne hd =>
    obtain ⟨first, others, after, hsplit, hle⟩ := exists_longer_digits hne hd rest
    obtain ⟨digit, digits, rfl⟩ := List.exists_cons_of_ne_nil hne
    have hsign := splitSign_append_of_isDigit hs (hd digit List.mem_cons_self) (digits ++ rest)
    have happend : mark :: sign ++ digit :: digits ++ rest =
        mark :: (sign ++ digit :: (digits ++ rest)) := by simp
    rw [List.cons_append] at hsplit
    rw [happend, splitExponent, if_pos hm, hsign]
    simp only [hsplit, List.length_append, List.length_cons] at hle ⊢
    omega

/-- An exponent leaves no choice of the significand before it, and without one the significand is
all that counts. -/
theorem exists_longer (hn : IsNumeral numeral) (rest : List Char) :
    ∃ longer after, split? (numeral ++ rest) = some (longer, after) ∧
      numeral.length ≤ longer.length := by
  obtain ⟨significand, exponent, hs, he⟩ := hn
  rw [List.append_assoc, split?]
  have hle := length_le_splitExponent he rest
  cases he with
  | absent =>
    obtain ⟨longer, after, hsplit, hlonger⟩ := exists_longer_significand hs rest
    rw [List.nil_append, hsplit]
    refine ⟨_, _, rfl, ?_⟩
    simp only [List.append_nil, List.length_append]
    omega
  | power mark sign digits hm =>
    have hdigit : NoDigit (mark :: sign ++ digits ++ rest) := by
      rintro c ⟨⟩
      exact not_isDigit_of_isExponentMark hm
    have hpoint : ∀ c ∈ (mark :: sign ++ digits ++ rest).head?, c ≠ '.' := by
      rintro c ⟨⟩ rfl
      cases hm
    rw [splitSignificand_append_of_isSignificand hs hdigit hpoint]
    refine ⟨_, _, rfl, ?_⟩
    simp only [List.length_append] at hle ⊢
    omega

end Flowsheet.Numeral
