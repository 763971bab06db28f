import Mathlib.Data.List.Chain
import Flowsheet.Proofs.Expression.Grammar
import Flowsheet.Proofs.Numeral.Spelling
import Flowsheet.Proofs.Success

/-! Texts that spell out symbols with blanks between them, and that the tokens of such a text are
those symbols. Only two numbers next to each other could run together, and no phrase has them. -/

namespace Flowsheet

open Numeral Text

variable {c : Char} {cs numeral : List Char}

theorem Text.isDigit_eq_true_iff :
    isDigit c = true ↔ ∃ z ∈ digitZeros, z ≤ c.toNat ∧ c.toNat < z + 10 := by
  simp [isDigit, digitValue?]

/-- The rows of digits lie between the blanks. -/
theorem Text.not_isDigit_of_isBlank (hc : isBlank c = true) : isDigit c = false := by
  have hgaps : ∀ z ∈ digitZeros, 0x20 < z ∧ (z + 10 ≤ 0x85 ∨ 0xA0 < z) ∧
      (z + 10 ≤ 0x1680 ∨ 0x1680 < z) ∧ (z + 10 ≤ 0x2000 ∨ 0x3000 < z) := by decide
  rw [Bool.eq_false_iff]
  intro hd
  obtain ⟨z, hz, hle, hlt⟩ := isDigit_eq_true_iff.mp hd
  have hgap := hgaps z hz
  simp only [isBlank, isWhiteSpace, Bool.or_eq_true, Bool.and_eq_true, decide_eq_true_eq,
    beq_iff_eq] at hc
  omega

theorem Text.not_isBlank_of_isDigit (hc : isDigit c = true) : isBlank c = false := by
  rw [Bool.eq_false_iff]
  intro hb
  rw [not_isDigit_of_isBlank hb] at hc
  cases hc

namespace Expression

def Separates (c : Char) : Prop :=
  isBlank c = true ∨ (operator? c).isSome = true

theorem Separates.not_isDigit (hc : Separates c) : isDigit c = false := by
  rcases hc with hc | hc
  · exact not_isDigit_of_isBlank hc
  · unfold operator? at hc
    split at hc <;> first | rfl | cases hc

theorem Separates.ne (hc : Separates c) {d : Char} (hb : isBlank d = false)
    (ho : (operator? d).isSome = false) : c ≠ d := by
  rintro rfl
  rcases hc with hc | hc
  · rw [hb] at hc
    cases hc
  · rw [ho] at hc
    cases hc

theorem ends_of_separates (hc : ∀ c ∈ cs.head?, Separates c) : Ends cs where
  noDigit c hm := (hc c hm).not_isDigit
  noPoint c hm := (hc c hm).ne rfl rfl
  noMark c hm := by
    have he := (hc c hm).ne (d := 'e') rfl rfl
    have hE := (hc c hm).ne (d := 'E') rfl rfl
    simp [isExponentMark, he, hE]

/-- The words one after another, with any blanks before, between and after them. -/
inductive Spaced : List (List Char) → List Char → Prop where
  | nil : Spaced [] []
  | blank {words : List (List Char)} {cs : List Char} (c : Char) : isBlank c = true →
      Spaced words cs → Spaced words (c :: cs)
  | word {words : List (List Char)} {cs : List Char} (word : List Char) : Spaced words cs →
      Spaced (word :: words) (word ++ cs)

theorem Spaced.append {words : List (List Char)} {cs : List Char} (front : List (List Char))
    (hs : Spaced words cs) : Spaced (front ++ words) (front.flatten ++ cs) := by
  induction front with
  | nil => exact hs
  | cons word front ih =>
    rw [List.flatten_cons, List.append_assoc]
    exact .word word ih

theorem spaced_flatten (words : List (List Char)) : Spaced words words.flatten := by
  simpa only [List.append_nil] using Spaced.nil.append words

theorem exists_cons_of_isNumber (hn : IsNumber numeral) :
    ∃ c rest, numeral = c :: rest ∧ isBlank c = false := by
  cases hn with
  | infinity => exact ⟨'I', _, rfl, rfl⟩
  | notANumber => exact ⟨'N', _, rfl, rfl⟩
  | numeral _ hn =>
    obtain ⟨significand, exponent, hs, -⟩ := hn
    cases hs with
    | fraction digits => exact ⟨'.', _, rfl, rfl⟩
    | whole digits hne hd =>
      obtain ⟨first, rest, rfl⟩ := List.exists_cons_of_ne_nil hne
      exact ⟨first, _, rfl, not_isBlank_of_isDigit (hd first List.mem_cons_self)⟩
    | pointed whole fraction hne hw =>
      obtain ⟨first, rest, rfl⟩ := List.exists_cons_of_ne_nil hne
      exact ⟨first, _, rfl, not_isBlank_of_isDigit (hw first List.mem_cons_self)⟩

theorem not_isBlank_of_isNumber (hn : IsNumber numeral) : ∀ c ∈ numeral, isBlank c = false := by
  have hother : ∀ c ∈ otherCharacters, isBlank c = false := by
    simp [otherCharacters, infinityName, nanName, isBlank, isWhiteSpace]
  exact hn.forall_mem (fun c hc => not_isBlank_of_isDigit hc) hother

theorem splitNumber_append_of_isNumber (hn : IsNumber numeral) (hr : Ends cs) :
    splitNumber (numeral ++ cs) = some (numeral, cs) := by
  cases hn with
  | numeral _ hn => rw [splitNumber, split?_append_of_isNumeral hn hr, Option.some_or]
  | infinity => rfl
  | notANumber => rfl

theorem splitNumber_of_operator {symbol : Symbol} (ho : operator? c = some symbol) :
    splitNumber (c :: cs) = none := by
  unfold operator? at ho
  split at ho <;> first | rfl | cases ho

namespace Symbol

def IsValid (symbol : Symbol) : Prop :=
  ∀ numeral, symbol = .number numeral → IsNumber numeral

/-- Two symbols that may follow each other with nothing in between. -/
def Apart (left right : Symbol) : Prop :=
  left.isNumber = true → right.isNumber = false

end Symbol

variable {symbol : Symbol}

theorem exists_operator (hs : symbol.isNumber = false) :
    ∃ c, symbol.text = [c] ∧ operator? c = some symbol ∧ isBlank c = false := by
  cases symbol with
  | number numeral => cases hs
  | plus => exact ⟨'+', rfl, rfl, rfl⟩
  | minus => exact ⟨'-', rfl, rfl, rfl⟩
  | times => exact ⟨'*', rfl, rfl, rfl⟩
  | divide => exact ⟨'/', rfl, rfl, rfl⟩
  | openParen => exact ⟨'(', rfl, rfl, rfl⟩
  | closeParen => exact ⟨')', rfl, rfl, rfl⟩

theorem exists_cons_of_isValid (hv : symbol.IsValid) :
    ∃ c rest, symbol.text = c :: rest ∧ isBlank c = false := by
  cases hs : symbol.isNumber with
  | false =>
    obtain ⟨c, ht, -, hb⟩ := exists_operator hs
    exact ⟨c, [], ht, hb⟩
  | true =>
    cases symbol with
    | number numeral => exact exists_cons_of_isNumber (hv numeral rfl)
    | _ => cases hs

theorem splitSymbol_append_of_isValid (hv : symbol.IsValid)
    (hr : symbol.isNumber = true → Ends cs) :
    splitSymbol (symbol.text ++ cs) = some (symbol, cs) := by
  cases hs : symbol.isNumber with
  | false =>
    obtain ⟨c, ht, ho, -⟩ := exists_operator hs
    simp [ht, splitSymbol, splitNumber_of_operator ho, ho]
  | true =>
    cases symbol with
    | number numeral =>
      unfold splitSymbol
      rw [Symbol.text, splitNumber_append_of_isNumber (hv numeral rfl) (hr rfl)]
    | _ => cases hs

theorem tokensFrom_nil (position : Nat) : tokensFrom position [] = .ok [] := by
  rw [tokensFrom.eq_def]

theorem tokensFrom_blank (position : Nat) (hb : isBlank c = true) :
    tokensFrom position (c :: cs) = tokensFrom (position + 1) cs := by
  rw [tokensFrom.eq_def]
  exact if_pos hb

theorem tokensFrom_split {rest : List Char} (position : Nat) (hb : ¬ isBlank c = true)
    (hs : splitSymbol (c :: cs) = some (symbol, rest)) : tokensFrom position (c :: cs) =
      (tokensFrom (position + symbol.text.length) rest).map (⟨symbol, position⟩ :: ·) := by
  rw [tokensFrom.eq_def]
  refine (if_neg hb).trans ?_
  split
  · next hs' =>
    cases hs.symm.trans hs'
    rfl
  · next hs' => cases hs.symm.trans hs'

theorem tokensFrom_stuck (position : Nat) (hb : ¬ isBlank c = true)
    (hs : splitSymbol (c :: cs) = none) :
    tokensFrom position (c :: cs) = .error ⟨.unexpectedCharacter c, position⟩ := by
  rw [tokensFrom.eq_def]
  refine (if_neg hb).trans ?_
  split
  · next hs' => cases hs.symm.trans hs'
  · rfl

theorem tokensFrom_of_splitSymbol (position : Nat) (hv : symbol.IsValid)
    (hsplit : splitSymbol (symbol.text ++ cs) = some (symbol, cs)) :
    tokensFrom position (symbol.text ++ cs) =
      (tokensFrom (position + symbol.text.length) cs).map (⟨symbol, position⟩ :: ·) := by
  obtain ⟨c, rest, ht, hb⟩ := exists_cons_of_isValid hv
  have hcons : symbol.text ++ cs = c :: (rest ++ cs) := by rw [ht, List.cons_append]
  rw [hcons] at hsplit ⊢
  exact tokensFrom_split position (Bool.eq_false_iff.mp hb) hsplit

theorem tokensFrom_symbol (position : Nat) (hv : symbol.IsValid)
    (hr : symbol.isNumber = true → Ends cs) :
    tokensFrom position (symbol.text ++ cs) =
      (tokensFrom (position + symbol.text.length) cs).map (⟨symbol, position⟩ :: ·) :=
  tokensFrom_of_splitSymbol position hv (splitSymbol_append_of_isValid hv hr)

theorem separates_of_spaced {symbols : List Symbol} (hs : Spaced (symbols.map Symbol.text) cs)
    (hfirst : ∀ symbol ∈ symbols.head?, symbol.isNumber = false) :
    ∀ c ∈ cs.head?, Separates c := by
  generalize hw : symbols.map Symbol.text = words at hs
  cases hs with
  | nil => simp
  | blank c hb =>
    rintro c ⟨⟩
    exact .inl hb
  | word word hs =>
    obtain ⟨first, rest, rfl, rfl, -⟩ := List.map_eq_cons_iff.mp hw
    obtain ⟨c, ht, ho, -⟩ := exists_operator (hfirst first rfl)
    rw [ht]
    rintro c ⟨⟩
    exact .inr (by rw [ho, Option.isSome_some])

/-- The tokens of a text that spells out symbols are those symbols, if no two numbers touch. -/
theorem tokensFrom_spaced {symbols : List Symbol} (position : Nat)
    (hs : Spaced (symbols.map Symbol.text) cs) (hv : ∀ symbol ∈ symbols, symbol.IsValid)
    (hc : symbols.IsChain Symbol.Apart) :
    ∃ ts, tokensFrom position cs = .ok ts ∧ ts.map Token.symbol = symbols := by
  generalize hw : symbols.map Symbol.text = words at hs
  induction hs generalizing symbols position with
  | nil =>
    obtain rfl := List.map_eq_nil_iff.mp hw
    exact ⟨[], tokensFrom_nil position, rfl⟩
  | blank c hb hs ih =>
    rw [tokensFrom_blank position hb]
    exact ih (position + 1) hv hc hw
  | word word hs ih =>
    obtain ⟨symbol, rest, rfl, rfl, hrest⟩ := List.map_eq_cons_iff.mp hw
    obtain ⟨hfirst, hc⟩ := List.isChain_cons.mp hc
    obtain ⟨ts, hts, hmap⟩ := ih (position + symbol.text.length)
      (fun s hm => hv s (List.mem_cons_of_mem _ hm)) hc hrest
    -- After a number comes a blank or an operator, and neither makes it longer.
    have hends : symbol.isNumber = true → Ends _ := fun hn =>
      ends_of_separates (separates_of_spaced (hrest ▸ hs) fun s hm => hfirst s hm hn)
    refine ⟨⟨symbol, position⟩ :: ts, ?_, ?_⟩
    · rw [tokensFrom_symbol position (hv symbol List.mem_cons_self) hends, hts]
      rfl
    · rw [List.map_cons, hmap]

theorem eq_of_splitWord {word rest : List Char} (hs : splitWord word cs = some (numeral, rest)) :
    numeral = word := by
  unfold splitWord at hs
  split at hs
  · cases hs
    rfl
  · cases hs

theorem isNumber_of_splitNumber {rest : List Char} (hs : splitNumber cs = some (numeral, rest)) :
    IsNumber numeral := by
  rcases Option.or_eq_some_iff.mp hs with hn | ⟨-, hw⟩
  · exact .numeral numeral (isNumeral_of_split? hn)
  · rcases Option.or_eq_some_iff.mp hw with hi | ⟨-, hn⟩
    · rw [eq_of_splitWord hi]
      exact .infinity
    · rw [eq_of_splitWord hn]
      exact .notANumber

theorem isValid_of_splitSymbol {rest : List Char} (hs : splitSymbol cs = some (symbol, rest)) :
    symbol.IsValid := by
  rintro numeral rfl
  unfold splitSymbol at hs
  split at hs
  · next hn =>
    cases hs
    exact isNumber_of_splitNumber hn
  · split at hs
    · obtain ⟨symbol, ho, he⟩ := Option.map_eq_some_iff.mp hs
      cases he
      unfold operator? at ho
      split at ho <;> cases ho
    · cases hs

theorem isValid_of_mem_tokensFrom {position : Nat} {ts : List Token}
    (hts : tokensFrom position cs = .ok ts) : ∀ token ∈ ts, token.symbol.IsValid := by
  induction position, cs using tokensFrom.induct generalizing ts with
  | case1 position =>
    rw [tokensFrom_nil] at hts
    cases hts
    exact List.forall_mem_nil _
  | case2 position c rest hb ih => exact ih ((tokensFrom_blank position hb).symm.trans hts)
  | case3 position c rest hb symbol after hs hlt ih =>
    rw [tokensFrom_split position hb hs] at hts
    obtain ⟨later, hl, rfl⟩ := map_eq_ok.mp hts
    exact List.forall_mem_cons.mpr ⟨isValid_of_splitSymbol hs, ih hl⟩
  | case4 position c rest hb hs =>
    rw [tokensFrom_stuck position hb hs] at hts
    cases hts

theorem isChain_append_mark {left right : List Symbol} {mark : Symbol}
    (hl : left.IsChain Symbol.Apart) (hm : mark.isNumber = false)
    (hr : right.IsChain Symbol.Apart) : (left ++ mark :: right).IsChain Symbol.Apart := by
  refine List.isChain_append.mpr ⟨hl, List.isChain_cons.mpr ⟨fun s _ hn => ?_, hr⟩, ?_⟩
  · rw [hm] at hn
    cases hn
  · rintro s - t ⟨⟩ -
    exact hm

namespace Phrase

variable {category : Category}

theorem isChain_symbols (p : Phrase (List Char) category) : p.symbols.IsChain Symbol.Apart := by
  have hnil : ([] : List Symbol).IsChain Symbol.Apart := List.isChain_nil
  induction p with
  | operand numeral => exact List.isChain_singleton _
  | group e ih => exact isChain_append_mark hnil rfl (isChain_append_mark ih rfl hnil)
  | primary p ih => exact ih
  | signed sign u ih => exact isChain_append_mark hnil sign.not_isNumber ih
  | unary u ih => exact ih
  | product t scaling u iht ihu => exact isChain_append_mark iht scaling.not_isNumber ihu
  | term t ih => exact ih
  | sum e sign t ihe iht => exact isChain_append_mark ihe sign.not_isNumber iht

theorem isValid_of_mem_symbols {p : Phrase (List Char) category} (hp : p.All IsNumber) :
    ∀ symbol ∈ p.symbols, symbol.IsValid := by
  refine forall_mem_spell ?_ ?_ hp
  · intro numeral hn symbol hm n hs
    rw [List.mem_singleton.mp hm] at hs
    cases hs
    exact hn
  · rintro symbol hs n rfl
    cases hs

theorem tokensFrom_phrase {p : Phrase (List Char) category} (hp : p.All IsNumber)
    (position : Nat) (hs : Spaced (p.symbols.map Symbol.text) cs) :
    ∃ ts, tokensFrom position cs = .ok ts ∧ ts.map Token.symbol = p.symbols :=
  tokensFrom_spaced position hs (isValid_of_mem_symbols hp) p.isChain_symbols

end Phrase

end Expression

end Flowsheet
