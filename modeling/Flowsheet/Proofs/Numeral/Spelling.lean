import Flowsheet.Numeral

/-! Which texts are numerals, and that a numeral is found whole at the head of a text if nothing
after it could make it longer. -/

namespace Flowsheet.Numeral

open Text

variable {cs digits significand exponent numeral rest : List Char} {c : Char}

def AllDigits (cs : List Char) : Prop :=
  ∀ c ∈ cs, isDigit c = true

/-- Digits, which may have a point among them or at either end. -/
inductive IsSignificand : List Char → Prop where
  | whole (digits : List Char) : digits ≠ [] → AllDigits digits → IsSignificand digits
  | pointed (whole fraction : List Char) : whole ≠ [] → AllDigits whole → AllDigits fraction →
      IsSignificand (whole ++ '.' :: fraction)
  | fraction (digits : List Char) : digits ≠ [] → AllDigits digits → IsSignificand ('.' :: digits)

inductive IsExponent : List Char → Prop where
  | absent : IsExponent []
  | power (mark : Char) (sign digits : List Char) : isExponentMark mark = true →
      sign ∈ [[], ['+'], ['-']] → digits ≠ [] → AllDigits digits →
      IsExponent (mark :: sign ++ digits)

inductive IsNumeral : List Char → Prop where
  | intro (significand exponent : List Char) : IsSignificand significand → IsExponent exponent →
      IsNumeral (significand ++ exponent)

/-- What a text may write for a number: a numeral, or one of the two words. -/
inductive IsNumber : List Char → Prop where
  | numeral (numeral : List Char) : IsNumeral numeral → IsNumber numeral
  | infinity : IsNumber infinityName
  | notANumber : IsNumber nanName

/-- What a number is written with besides digits. -/
def otherCharacters : List Char := ['.', 'e', 'E', '+', '-'] ++ infinityName ++ nanName

theorem IsNumber.forall_mem {P : Char → Prop} (hn : IsNumber numeral)
    (hdigit : ∀ c, isDigit c = true → P c) (hother : ∀ c ∈ otherCharacters, P c) :
    ∀ c ∈ numeral, P c := by
  have hdigits : ∀ {digits : List Char}, AllDigits digits → ∀ c ∈ digits, P c :=
    fun hd c hc => hdigit c (hd c hc)
  cases hn with
  | infinity => exact fun c hc => hother c (by simp [otherCharacters, hc])
  | notANumber => exact fun c hc => hother c (by simp [otherCharacters, hc])
  | numeral _ hn =>
    obtain ⟨significand, exponent, hs, he⟩ := hn
    rw [List.forall_mem_append]
    have hpoint : P '.' := hother _ (by simp [otherCharacters])
    constructor
    · cases hs with
      | whole digits _ hd => exact hdigits hd
      | pointed whole fraction _ hw hf =>
        exact List.forall_mem_append.mpr
          ⟨hdigits hw, List.forall_mem_cons.mpr ⟨hpoint, hdigits hf⟩⟩
      | fraction digits _ hd => exact List.forall_mem_cons.mpr ⟨hpoint, hdigits hd⟩
    · cases he with
      | absent => exact List.forall_mem_nil _
      | power mark sign digits hm hs _ hd =>
        have hmark : P mark := by
          simp only [isExponentMark, Bool.or_eq_true, beq_iff_eq] at hm
          rcases hm with rfl | rfl <;> exact hother _ (by simp [otherCharacters])
        have hsign : ∀ c ∈ sign, P c := by
          simp only [List.mem_cons, List.not_mem_nil, or_false] at hs
          intro c hc
          refine hother c ?_
          rcases hs with rfl | rfl | rfl <;> simp_all [otherCharacters]
        exact List.forall_mem_append.mpr ⟨List.forall_mem_cons.mpr ⟨hmark, hsign⟩, hdigits hd⟩

theorem not_isDigit_point : isDigit '.' = false := by decide

theorem ne_of_isDigit (hc : isDigit c = true) {d : Char} (hd : isDigit d = false) : c ≠ d := by
  rintro rfl
  rw [hc] at hd
  cases hd

theorem not_isExponentMark_of_isDigit (hc : isDigit c = true) : isExponentMark c = false := by
  have he := ne_of_isDigit (d := 'e') hc (by decide)
  have hE := ne_of_isDigit (d := 'E') hc (by decide)
  simp [isExponentMark, he, hE]

theorem not_isDigit_of_isExponentMark (hc : isExponentMark c = true) : isDigit c = false := by
  cases hd : isDigit c with
  | false => rfl
  | true => rw [not_isExponentMark_of_isDigit hd] at hc; cases hc

/-- No digit stands at the head of the text. -/
def NoDigit (cs : List Char) : Prop :=
  ∀ c ∈ cs.head?, isDigit c = false

/-- Nothing at the head of the text could continue a numeral. -/
structure Ends (cs : List Char) : Prop where
  noDigit : NoDigit cs
  noPoint : ∀ c ∈ cs.head?, c ≠ '.'
  noMark : ∀ c ∈ cs.head?, isExponentMark c = false

theorem splitDigits_of_noDigit (hr : NoDigit rest) : splitDigits rest = ([], rest) := by
  cases rest with
  | nil => rfl
  | cons c rest =>
    have hc : ¬ isDigit c = true := by simp [hr c rfl]
    simp [splitDigits, hc]

theorem splitDigits_append_of_allDigits (hd : AllDigits digits) (hr : NoDigit rest) :
    splitDigits (digits ++ rest) = (digits, rest) := by
  have hrest := splitDigits_of_noDigit hr
  simp only [splitDigits, Prod.mk.injEq] at hrest
  rw [splitDigits, List.takeWhile_append_of_pos hd, List.dropWhile_append_of_pos hd, hrest.1,
    hrest.2, List.append_nil]

theorem splitExponent_of_noMark (hr : ∀ c ∈ rest.head?, isExponentMark c = false) :
    splitExponent rest = ([], rest) := by
  cases rest with
  | nil => rfl
  | cons c rest => simp [splitExponent, hr c rfl]

theorem splitSign_append_of_isDigit {sign : List Char} (hs : sign ∈ [[], ['+'], ['-']])
    (hc : isDigit c = true) (cs : List Char) :
    splitSign (sign ++ c :: cs) = (sign, c :: cs) := by
  have hplus := ne_of_isDigit (d := '+') hc (by decide)
  have hminus := ne_of_isDigit (d := '-') hc (by decide)
  simp only [List.mem_cons, List.not_mem_nil, or_false] at hs
  rcases hs with rfl | rfl | rfl
  · unfold splitSign
    split <;> simp_all
  · rfl
  · rfl

/-- The exponent is found whole. -/
theorem splitExponent_append_of_isExponent (he : IsExponent exponent) (hr : Ends rest) :
    splitExponent (exponent ++ rest) = (exponent, rest) := by
  cases he with
  | absent => exact splitExponent_of_noMark hr.noMark
  | power mark sign digits hm hs hne hd =>
    obtain ⟨first, others, rfl⟩ := List.exists_cons_of_ne_nil hne
    have hsign := splitSign_append_of_isDigit hs (hd first List.mem_cons_self) (others ++ rest)
    have hdigits := splitDigits_append_of_allDigits hd hr.noDigit
    rw [List.cons_append] at hdigits
    simp [splitExponent, hm, hsign, hdigits]

/-- A significand is found whole before a text that cannot continue it. -/
theorem splitSignificand_append_of_isSignificand (hs : IsSignificand significand)
    (hr : NoDigit rest) (hp : ∀ c ∈ rest.head?, c ≠ '.') :
    splitSignificand (significand ++ rest) = some (significand, rest) := by
  cases hs with
  | whole digits hne hd =>
    obtain ⟨first, others, rfl⟩ := List.exists_cons_of_ne_nil hne
    unfold splitSignificand
    rw [splitDigits_append_of_allDigits hd hr]
    cases rest with
    | nil => rfl
    | cons c rest =>
      have hc := hp c rfl
      split <;> simp_all
  | pointed whole fraction hne hw hf =>
    obtain ⟨first, others, rfl⟩ := List.exists_cons_of_ne_nil hne
    have hpoint : NoDigit ('.' :: (fraction ++ rest)) := by
      rintro c ⟨⟩
      exact not_isDigit_point
    have happend : first :: others ++ '.' :: fraction ++ rest =
        first :: others ++ '.' :: (fraction ++ rest) := List.append_assoc ..
    unfold splitSignificand
    rw [happend, splitDigits_append_of_allDigits hw hpoint]
    simp [splitDigits_append_of_allDigits hf hr]
  | fraction digits hne hd =>
    obtain ⟨first, others, rfl⟩ := List.exists_cons_of_ne_nil hne
    have hpoint : NoDigit ('.' :: (first :: others ++ rest)) := by
      rintro c ⟨⟩
      exact not_isDigit_point
    unfold splitSignificand
    rw [List.cons_append, splitDigits_of_noDigit hpoint]
    simp only [splitDigits_append_of_allDigits hd hr]

theorem noDigit_append (he : IsExponent exponent) (hr : Ends rest) :
    NoDigit (exponent ++ rest) := by
  cases he with
  | absent => exact hr.noDigit
  | power mark sign digits hm =>
    rintro c ⟨⟩
    exact not_isDigit_of_isExponentMark hm

theorem noPoint_append (he : IsExponent exponent) (hr : Ends rest) :
    ∀ c ∈ (exponent ++ rest).head?, c ≠ '.' := by
  cases he with
  | absent => exact hr.noPoint
  | power mark sign digits hm =>
    rintro c ⟨⟩ rfl
    cases hm

theorem split?_append_of_isNumeral (hn : IsNumeral numeral) (hr : Ends rest) :
    split? (numeral ++ rest) = some (numeral, rest) := by
  obtain ⟨significand, exponent, hs, he⟩ := hn
  rw [List.append_assoc, split?,
    splitSignificand_append_of_isSignificand hs (noDigit_append he hr) (noPoint_append he hr),
    Option.map_some, splitExponent_append_of_isExponent he hr]

theorem ends_nil : Ends [] := by
  constructor <;> simp [NoDigit]

theorem IsNumeral.split?_eq (hn : IsNumeral numeral) : split? numeral = some (numeral, []) := by
  have hsplit := split?_append_of_isNumeral hn ends_nil
  rwa [List.append_nil] at hsplit

theorem IsNumeral.ne_of_split?_eq_none (hn : IsNumeral numeral) {word : List Char}
    (hw : split? word = none) : numeral ≠ word := by
  rintro rfl
  have hsplit := hn.split?_eq
  rw [hw] at hsplit
  cases hsplit

/-- No numeral begins with a sign. -/
theorem IsNumeral.splitSign_eq (hn : IsNumeral numeral) : splitSign numeral = ([], numeral) := by
  have hdigit : ∀ {digits : List Char}, digits ≠ [] → AllDigits digits → ∀ cs,
      splitSign (digits ++ cs) = ([], digits ++ cs) := by
    intro digits hne hd cs
    obtain ⟨first, others, rfl⟩ := List.exists_cons_of_ne_nil hne
    exact splitSign_append_of_isDigit List.mem_cons_self (hd first List.mem_cons_self) (others ++ cs)
  obtain ⟨significand, exponent, hs, -⟩ := hn
  cases hs with
  | whole digits hne hd => exact hdigit hne hd exponent
  | pointed whole fraction hne hw =>
    rw [List.append_assoc]
    exact hdigit hne hw ('.' :: fraction ++ exponent)
  | fraction digits => rfl

theorem allDigits_splitDigits (cs : List Char) : AllDigits (splitDigits cs).1 :=
  List.all_eq_true.mp List.all_takeWhile

theorem isSignificand_of_splitSignificand (h : splitSignificand cs = some (significand, rest)) :
    IsSignificand significand := by
  have hall := allDigits_splitDigits cs
  unfold splitSignificand at h
  split at h
  · split at h
    · next tail _ =>
      have htail := allDigits_splitDigits tail
      split at h
      · cases h
      · next hne heq =>
        cases h
        rw [heq] at htail
        exact .fraction _ hne htail
    · cases h
  · next hne heq =>
    cases h
    rw [heq] at hall
    exact .pointed _ _ hne hall (allDigits_splitDigits _)
  · next hne _ heq =>
    cases h
    rw [heq] at hall
    exact .whole _ hne hall

theorem splitSign_mem (cs : List Char) : (splitSign cs).1 ∈ [[], ['+'], ['-']] := by
  unfold splitSign
  split <;> simp

theorem isExponent_splitExponent (cs : List Char) : IsExponent (splitExponent cs).1 := by
  unfold splitExponent
  split
  · next mark tail =>
    split
    · next hmark =>
      have hall := allDigits_splitDigits (splitSign tail).2
      dsimp only
      split
      · exact .absent
      · next hne heq =>
        rw [heq] at hall
        exact .power mark _ _ hmark (splitSign_mem tail) hne hall
    · exact .absent
  · exact .absent

theorem isNumeral_of_split? (h : split? cs = some (numeral, rest)) : IsNumeral numeral := by
  obtain ⟨⟨significand, after⟩, hs, he⟩ := Option.map_eq_some_iff.mp h
  cases he
  exact .intro _ _ (isSignificand_of_splitSignificand hs) (isExponent_splitExponent after)

end Flowsheet.Numeral
