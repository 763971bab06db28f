import Flowsheet.Proofs.Double.Whole
import Flowsheet.Proofs.Expression.Substitution

/-! A text that holds one number, with a sign or without, is that number both as the value of a
variable and as an expression. Any other text is zero as the value of a variable. The text of a
number is such a text, and it loses nothing but the sign of a zero. -/

namespace Flowsheet

namespace Text

variable {p : Char → Bool} {before word after : List Char}

theorem dropWhile_append_of_none (hb : ∀ c ∈ before, p c = true) (hw : ∀ c ∈ word, p c = false)
    (hne : word ≠ []) : (before ++ word ++ after).dropWhile p = word ++ after := by
  obtain ⟨first, rest, rfl⟩ := List.exists_cons_of_ne_nil hne
  rw [List.append_assoc, List.dropWhile_append_of_pos hb, List.cons_append,
    List.dropWhile_cons_of_neg]
  rw [hw first List.mem_cons_self]
  exact Bool.false_ne_true

theorem strip_append (hb : ∀ c ∈ before, p c = true) (hw : ∀ c ∈ word, p c = false)
    (ha : ∀ c ∈ after, p c = true) (hne : word ≠ []) :
    strip p (before ++ word ++ after) = word := by
  have hback : (after.reverse ++ word.reverse ++ []).dropWhile p = word.reverse ++ [] :=
    dropWhile_append_of_none (fun c hc => ha c (List.mem_reverse.mp hc))
      (fun c hc => hw c (List.mem_reverse.mp hc)) (by simpa using hne)
  rw [List.append_nil, List.append_nil] at hback
  rw [strip, dropWhile_append_of_none hb hw hne, List.reverse_append, hback, List.reverse_reverse]

theorem exists_strip (p : Char → Bool) (cs : List Char) :
    ∃ before after, cs = before ++ strip p cs ++ after ∧ (∀ c ∈ before, p c = true) ∧
      ∀ c ∈ after, p c = true := by
  refine ⟨cs.takeWhile p, ((cs.dropWhile p).reverse.takeWhile p).reverse, ?_,
    List.all_eq_true.mp List.all_takeWhile, fun c hc => ?_⟩
  · rw [strip, List.append_assoc, ← List.reverse_append, List.takeWhile_append_dropWhile,
      List.reverse_reverse, List.takeWhile_append_dropWhile]
  · exact List.all_eq_true.mp List.all_takeWhile c (List.mem_reverse.mp hc)

end Text

namespace Expression

open Numeral Text

variable {sign : Option Sign} {numeral : List Char} {x : Double}

/-- A text that spells out a phrase is its own filling, so that its value is the value of the
phrase. -/
theorem evaluate_phrase {p : Phrase (List Char) .expression} (hp : p.All IsNumber)
    (hn : p.depth ≤ nestingLimit) {text : String} (ht : ∀ c ∈ text.toList, c ≠ '\x7b')
    (hs : Spaced (p.symbols.map Symbol.text) text.toList) (get? : String → Option Value) :
    evaluate text get? = .ok ((p.tree numberValue).value doubles) := by
  have hfill := Template.fill_append (Template.numberIn get?) ht []
  rw [Template.fill_nil, List.append_nil] at hfill
  have hinterpolate : Template.interpolate text get? = text := by
    rw [Template.interpolate, hfill, String.ofList_toList]
  obtain ⟨ts, htokens, hsymbols⟩ := Phrase.tokensFrom_phrase hp 0 hs
  have hparse : parse text = .ok (p.tree numberValue) := by
    rw [parse, tokens, htokens, ok_bind, parseTokens_phrase _ hsymbols hn]
  simp only [evaluate, hinterpolate, hparse]
  rw [Tree.evaluate_eq_value]

def leadingSign : Option Sign → List Char
  | none => []
  | some sign => sign.symbol.text

/-- The number with the sign before it. A plus sign changes nothing. -/
def signedValue : Option Sign → Double → Double
  | some .minus, x => x.negate
  | _, x => x

/-- The word for what is not a number stands for no magnitude. -/
def IsMagnitude (numeral : List Char) : Prop :=
  IsNumeral numeral ∨ numeral = infinityName

/-- The magnitude stands between blanks, with the sign right before it if there is one. -/
structure IsLiteral (sign : Option Sign) (numeral cs : List Char) : Prop where
  isMagnitude : IsMagnitude numeral
  surrounded : ∃ before after, cs = before ++ (leadingSign sign ++ numeral) ++ after ∧
    (∀ c ∈ before, isBlank c = true) ∧ ∀ c ∈ after, isBlank c = true

theorem IsMagnitude.isNumber (hn : IsMagnitude numeral) : IsNumber numeral := by
  rcases hn with hn | rfl
  · exact .numeral numeral hn
  · exact .infinity

theorem mem_leadingSign {c : Char} (hc : c ∈ leadingSign sign) : c = '+' ∨ c = '-' := by
  rcases sign with _ | _ | _
  · cases hc
  · exact .inl (List.mem_singleton.mp hc)
  · exact .inr (List.mem_singleton.mp hc)

theorem not_isBlank_leadingSign (sign : Option Sign) :
    ∀ c ∈ leadingSign sign, isBlank c = false := by
  intro c hc
  rcases mem_leadingSign hc with rfl | rfl <;> rfl

def signedPhrase (sign : Option Sign) (numeral : List Char) : Phrase (List Char) .unary :=
  match sign with
  | none => .primary (.operand numeral)
  | some sign => .signed sign (.primary (.operand numeral))

theorem text_signedPhrase (sign : Option Sign) (numeral : List Char) :
    ((signedPhrase sign numeral).symbols.map Symbol.text).flatten =
      leadingSign sign ++ numeral := by
  rcases sign with _ | sign <;>
    simp [signedPhrase, Phrase.symbols, Phrase.spell, Symbol.text, leadingSign]

theorem all_signedPhrase (sign : Option Sign) (hn : IsNumber numeral) :
    (signedPhrase sign numeral).All IsNumber := by
  rcases sign with _ | sign <;> exact hn

theorem depth_signedPhrase_le (sign : Option Sign) (numeral : List Char) :
    (signedPhrase sign numeral).depth ≤ nestingLimit := by
  rcases sign with _ | sign
  · exact Nat.zero_le _
  · exact Nat.le_of_ble_eq_true rfl

theorem value_signedPhrase (sign : Option Sign) (numeral : List Char) :
    ((signedPhrase sign numeral).tree numberValue).value doubles =
      signedValue sign (numberValue numeral) := by
  rcases sign with _ | _ | _ <;> rfl

theorem Spaced.blanks {words : List (List Char)} {blanks rest : List Char}
    (hb : ∀ c ∈ blanks, isBlank c = true) (hs : Spaced words rest) :
    Spaced words (blanks ++ rest) := by
  induction blanks with
  | nil => exact hs
  | cons c blanks ih =>
    exact .blank c (hb c List.mem_cons_self) (ih fun d hd => hb d (List.mem_cons_of_mem c hd))

namespace IsLiteral

variable {cs : List Char} {s : String}

theorem spaced (hl : IsLiteral sign numeral cs) :
    Spaced ((signedPhrase sign numeral).symbols.map Symbol.text) cs := by
  obtain ⟨before, after, rfl, hb, ha⟩ := hl.surrounded
  have hafter : Spaced [] after := by
    simpa only [List.append_nil] using Spaced.nil.blanks ha
  have hwords := hafter.append ((signedPhrase sign numeral).symbols.map Symbol.text)
  rw [text_signedPhrase] at hwords
  rw [List.append_assoc]
  simpa only [List.append_nil] using hwords.blanks hb

theorem ne_brace (hl : IsLiteral sign numeral cs) : ∀ c ∈ cs, c ≠ '\x7b' := by
  have hblank : ∀ c, isBlank c = true → c ≠ '\x7b' := by
    rintro c hc rfl
    cases hc
  have hsign : ∀ c ∈ leadingSign sign, c ≠ '\x7b' := by
    intro c hc
    rcases mem_leadingSign hc with rfl | rfl <;> decide
  obtain ⟨before, after, rfl, hb, ha⟩ := hl.surrounded
  simp only [List.forall_mem_append]
  exact ⟨⟨fun c hc => hblank c (hb c hc), hsign,
    Template.ne_brace_of_isNumber hl.isMagnitude.isNumber⟩, fun c hc => hblank c (ha c hc)⟩

theorem evaluate_eq (hl : IsLiteral sign numeral s.toList) (get? : String → Option Value) :
    evaluate s get? = .ok (signedValue sign (numberValue numeral)) := by
  have hphrase := evaluate_phrase (p := .term (.unary (signedPhrase sign numeral)))
    (all_signedPhrase sign hl.isMagnitude.isNumber) (depth_signedPhrase_le sign numeral)
    hl.ne_brace hl.spaced get?
  exact hphrase.trans (congrArg Except.ok (value_signedPhrase sign numeral))

end IsLiteral

theorem splitSign_append_of_isMagnitude (sign : Option Sign) (hn : IsMagnitude numeral) :
    splitSign (leadingSign sign ++ numeral) = (leadingSign sign, numeral) := by
  rcases sign with _ | _ | _
  · rcases hn with hn | rfl
    · exact hn.splitSign_eq
    · rfl
  · rfl
  · rfl

theorem read_append (sign : Option Sign) (hn : IsMagnitude numeral) :
    Numeral.read (leadingSign sign ++ numeral) = signedValue sign (numberValue numeral) := by
  rw [Numeral.read, splitSign_append_of_isMagnitude sign hn]
  rcases hn with hn | rfl
  · have hword : (numeral == infinityName) = false :=
      beq_false_of_ne (hn.ne_of_split?_eq_none rfl)
    simp only [hword, hn.split?_eq, Bool.false_eq_true, if_false]
    rw [numberValue_of_isNumeral hn]
    rcases sign with _ | _ | _
    · rfl
    · rfl
    · exact Decimal.toDouble_true _
  · rcases sign with _ | _ | _ <;> rfl

theorem exists_leadingSign (cs : List Char) : ∃ sign, (splitSign cs).1 = leadingSign sign := by
  have hsign := splitSign_mem cs
  simp only [List.mem_cons, List.not_mem_nil, or_false] at hsign
  rcases hsign with h | h | h
  · exact ⟨none, h⟩
  · exact ⟨some .plus, h⟩
  · exact ⟨some .minus, h⟩

/-- What is read as a number at all is a magnitude with its sign. -/
theorem read_eq_zero {cs : List Char}
    (hcs : ∀ sign numeral, IsMagnitude numeral → cs ≠ leadingSign sign ++ numeral) :
    Numeral.read cs = .zero := by
  obtain ⟨sign, hsign⟩ := exists_leadingSign cs
  have happend := splitSign_append cs
  rw [hsign] at happend
  unfold Numeral.read
  dsimp only
  split
  · next hword => exact absurd happend.symm (hcs sign _ (.inr (eq_of_beq hword)))
  · split
    · next numeral hsplit =>
      have hrest := (split?_append hsplit).1
      rw [List.append_nil] at hrest
      rw [← hrest] at happend
      exact absurd happend.symm (hcs sign numeral (.inl (isNumeral_of_split? hsplit)))
    · rfl

theorem IsLiteral.strip_eq {cs : List Char} (hl : IsLiteral sign numeral cs) :
    strip isBlank cs = leadingSign sign ++ numeral := by
  have hn := hl.isMagnitude.isNumber
  obtain ⟨before, after, rfl, hb, ha⟩ := hl.surrounded
  obtain ⟨first, rest, hcons, -⟩ := exists_cons_of_isNumber hn
  refine strip_append hb ?_ ha (List.append_ne_nil_of_right_ne_nil _ ?_)
  · exact List.forall_mem_append.mpr ⟨not_isBlank_leadingSign sign, not_isBlank_of_isNumber hn⟩
  · exact hcons ▸ List.cons_ne_nil first rest

theorem number_eq_zero {s : String} (hs : ∀ sign numeral, ¬ IsLiteral sign numeral s.toList) :
    (Value.text s).number = .zero := by
  refine read_eq_zero fun sign numeral hn heq => hs sign numeral ⟨hn, ?_⟩
  obtain ⟨before, after, hcs, hb, ha⟩ := exists_strip isBlank s.toList
  rw [heq] at hcs
  exact ⟨before, after, hcs, hb, ha⟩

/-- The text as the value of a variable and as an expression. -/
structure ReadAlike (s : String) : Prop where
  literal : ∀ sign numeral, IsLiteral sign numeral s.toList →
    (Value.text s).number = signedValue sign (numberValue numeral) ∧
      ∀ get?, evaluate s get? = .ok (Value.text s).number
  other : (∀ sign numeral, ¬ IsLiteral sign numeral s.toList) → (Value.text s).number = .zero

theorem texts_read_alike : (∀ s, ReadAlike s) ∧ ∀ v : Value, v.number.isNaN = false := by
  refine ⟨fun s => ⟨fun sign numeral hl => ?_, number_eq_zero⟩, Value.isNaN_number⟩
  have hnumber : (Value.text s).number = signedValue sign (numberValue numeral) := by
    rw [Value.number, hl.strip_eq, read_append sign hl.isMagnitude]
  refine ⟨hnumber, fun get? => ?_⟩
  rw [hnumber]
  exact hl.evaluate_eq get?

def signOf (x : Double) : Option Sign :=
  if x.isBelowZero then some .minus else none

theorem isMagnitude_render (hx : x.isNaN = false) : IsMagnitude (render x.magnitude) := by
  cases x with
  | nan payload => cases hx
  | infinite negative => exact .inr rfl
  | finite negative place =>
    rw [render_magnitude_finite]
    exact .inl (finiteText_spec place).1

theorem isLiteral_render (hx : x.isNaN = false) :
    IsLiteral (signOf x) (render x.magnitude) (render x) := by
  refine ⟨isMagnitude_render hx, [], [], ?_, List.forall_mem_nil _, List.forall_mem_nil _⟩
  rw [render_eq hx, signOf, List.nil_append, List.append_nil]
  cases x.isBelowZero <;> rfl

theorem evaluate_render (hx : x.isNaN = false) (get? : String → Option Value) :
    evaluate (String.ofList (render x)) get? = .ok x.unsignedZero := by
  have hl := isLiteral_render hx
  rw [← String.toList_ofList (l := render x)] at hl
  rw [hl.evaluate_eq, numberValue_render_magnitude hx, Double.unsignedZero_eq, signOf]
  cases x.isBelowZero <;> rfl

theorem unsignedZero_eq_self_iff (hx : x.isNaN = false) :
    x.unsignedZero = x ↔ x ≠ .signedZero true := by
  cases x with
  | nan payload => cases hx
  | infinite negative => exact iff_of_true rfl (by simp [Double.signedZero])
  | finite negative place =>
    by_cases hp : place.val = 0
    · have hplace : place = ⟨0, Double.places_pos⟩ := Fin.ext hp
      cases negative <;>
        simp [Double.unsignedZero, Double.isZero, Double.zero, Double.signedZero, hplace]
    · have hkept : Double.unsignedZero (.finite negative place) = .finite negative place := by
        simp [Double.unsignedZero, Double.isZero, hp]
      exact iff_of_true hkept fun heq => hp (congrArg Fin.val (Double.finite.inj heq).2)

/-- What is left of a number that is written and read again: all of it, unless it is the negative
zero. That one becomes the other zero, which divides into the other infinity. -/
structure ReadBack (x : Double) : Prop where
  evaluated : ∀ get?, evaluate (String.ofList (render x)) get? = .ok x.unsignedZero
  kept_iff : x.unsignedZero = x ↔ x ≠ .signedZero true
  divides_iff : (∀ y : Double, y.div x.unsignedZero = y.div x) ↔ x ≠ .signedZero true

theorem rendered_read_back (x : Double) (hx : x.isNaN = false) : ReadBack x where
  evaluated := evaluate_render hx
  kept_iff := unsignedZero_eq_self_iff hx
  divides_iff := by
    refine ⟨?_, fun hne y => by rw [(unsignedZero_eq_self_iff hx).mpr hne]⟩
    rintro hdiv rfl
    exact absurd (hdiv (.infinite false)) (by decide)

def minusOne : Double := .finite true Double.placeOfOne

theorem minus_one_read_back : minusOne.isNaN = false ∧
    evaluate (String.ofList (render minusOne)) (fun _ => none) = .ok minusOne := by
  have hback := rendered_read_back minusOne rfl
  have hkept : minusOne.unsignedZero = minusOne := hback.kept_iff.mpr (by decide)
  exact ⟨rfl, hkept ▸ hback.evaluated fun _ => none⟩

theorem negative_zero_loses_sign : (Double.signedZero true).isNaN = false ∧
    evaluate (String.ofList (render (.signedZero true))) (fun _ => none) = .ok .zero ∧
    Double.zero ≠ .signedZero true ∧
    (Double.infinite false).div .zero ≠ (Double.infinite false).div (.signedZero true) :=
  ⟨rfl, evaluate_render rfl _, by decide, by decide⟩

end Expression

end Flowsheet
