import Flowsheet.Expression.Basic
import Flowsheet.Proofs.Expression.Filling
import Flowsheet.Proofs.Expression.Lexing
import Flowsheet.Proofs.Expression.Machine
import Flowsheet.Proofs.Expression.Parsing
import Flowsheet.Proofs.Numeral.Rendering

/-! The value of a template is the value of its own tree: although names are replaced in the text,
no number that is filled in joins its neighbours or binds in another way than the name did. -/

namespace Flowsheet

theorem Double.isNaN_ofUnits (negative : Bool) (n d : Nat) :
    (ofUnits negative n d).isNaN = false := by
  unfold ofUnits
  split <;> rfl

theorem Numeral.isNaN_read (cs : List Char) : (Numeral.read cs).isNaN = false := by
  unfold Numeral.read
  dsimp only
  split
  · rfl
  · split
    · exact Decimal.isNaN_toDouble _ _
    · rfl

theorem Value.isNaN_number (v : Value) : v.number.isNaN = false := by
  cases v with
  | bool b => exact Double.isNaN_ofUnits _ _ _
  | int n => exact Double.isNaN_ofUnits _ _ _
  | text s => exact Numeral.isNaN_read _
  | double x =>
    change (if x.isNaN then Double.zero else x).isNaN = false
    split
    · rfl
    · next hx => exact Bool.eq_false_iff.mpr hx
  | _ => rfl

theorem Template.isNaN_numberIn (get? : String → Option Value) (name : String) :
    (numberIn get? name).isNaN = false := by
  unfold numberIn
  cases get? name with
  | none => rfl
  | some v => exact v.isNaN_number

namespace Expression

open Numeral

inductive Operand where
  | number (numeral : List Char) (isNumber : IsNumber numeral)
  | placeholder (inner : List Char) (isInner : Template.IsInner inner)

/-- The number as the filled text writes it: a sign is a part of the phrase. -/
def Phrase.ofDouble (x : Double) : Phrase (List Char) .unary :=
  let magnitude := .primary (.operand (render x.magnitude))
  if x.isBelowZero then .signed .minus magnitude else magnitude

namespace Operand

variable (get? : String → Option Value)

def text : Operand → List Char
  | number numeral _ => numeral
  | placeholder inner _ => Template.placeholder inner

/-- The number that the operand stands for. A filled text has no negative zero. -/
def denote : Operand → Double
  | number numeral _ => numberValue numeral
  | placeholder inner _ => (Template.numberIn get? (Template.name inner)).unsignedZero

/-- A number below zero is one level deeper than the place where it is filled in. -/
def nesting : Operand → Nat
  | number .. => 0
  | placeholder inner _ =>
    if (Template.numberIn get? (Template.name inner)).isBelowZero then 1 else 0

def filled : Operand → Phrase (List Char) .unary
  | number numeral _ => .primary (.operand numeral)
  | placeholder inner _ => .ofDouble (Template.numberIn get? (Template.name inner))

end Operand

namespace Phrase

variable {x : Double}

theorem all_ofDouble (hx : x.isNaN = false) : (ofDouble x).All IsNumber := by
  have hn := isNumber_render_magnitude hx
  unfold ofDouble
  dsimp only
  split <;> exact hn

theorem depth_ofDouble (x : Double) :
    (ofDouble x).depth = if x.isBelowZero then 1 else 0 := by
  unfold ofDouble
  dsimp only
  split <;> rfl

theorem value_ofDouble (hx : x.isNaN = false) :
    ((ofDouble x).tree numberValue).value doubles = x.unsignedZero := by
  have hvalue := numberValue_render_magnitude hx
  rw [Double.unsignedZero_eq]
  unfold ofDouble
  dsimp only
  split
  · exact congrArg Double.negate hvalue
  · exact hvalue

theorem flatMap_text_ofDouble (hx : x.isNaN = false) :
    ((ofDouble x).symbols.map Symbol.text).flatten = render x := by
  rw [render_eq hx]
  unfold ofDouble
  dsimp only
  split <;> simp_all [symbols, spell, Sign.symbol, Symbol.text, Double.signText]

end Phrase

inductive Lexeme where
  | operand (x : Operand)
  | mark (symbol : Symbol)

namespace Lexeme

def text : Lexeme → List Char
  | operand x => x.text
  | mark symbol => symbol.text

def IsPlain : Lexeme → Prop
  | operand _ => True
  | mark symbol => symbol.isNumber = false

def symbols (get? : String → Option Value) : Lexeme → List Symbol
  | operand x => (x.filled get?).symbols
  | mark symbol => [symbol]

theorem fill_append (get? : String → Option Value) {lexeme : Lexeme} (hl : lexeme.IsPlain)
    (cs : List Char) : Template.fill (Template.numberIn get?) (lexeme.text ++ cs) =
      ((lexeme.symbols get?).map Symbol.text).flatten ++
        Template.fill (Template.numberIn get?) cs := by
  cases lexeme with
  | operand x =>
    cases x with
    | number numeral hn =>
      simpa [text, Operand.text, symbols, Operand.filled, Phrase.symbols, Phrase.spell,
        Symbol.text] using Template.fill_append _ (Template.ne_brace_of_isNumber hn) cs
    | placeholder inner hi =>
      rw [text, Operand.text, Template.fill_placeholder _ hi, symbols, Operand.filled,
        Phrase.flatMap_text_ofDouble (Template.isNaN_numberIn get? _)]
  | mark symbol =>
    obtain ⟨c, ht, ho, -⟩ := exists_operator hl
    have hc : ∀ d ∈ [c], d ≠ '\x7b' := by
      rintro d hd rfl
      rw [← List.mem_singleton.mp hd] at ho
      cases ho
    simpa [text, symbols, ht] using Template.fill_append _ hc cs

end Lexeme

def Phrase.lexemes {c : Category} (p : Phrase Operand c) : List Lexeme :=
  p.spell (fun x => [.operand x]) .mark

theorem spaced_fill (get? : String → Option Value) {lexemes : List Lexeme} {cs : List Char}
    (hs : Spaced (lexemes.map Lexeme.text) cs) (hl : ∀ lexeme ∈ lexemes, lexeme.IsPlain) :
    Spaced ((lexemes.flatMap (Lexeme.symbols get?)).map Symbol.text)
      (Template.fill (Template.numberIn get?) cs) := by
  generalize hw : lexemes.map Lexeme.text = words at hs
  induction hs generalizing lexemes with
  | nil =>
    obtain rfl := List.map_eq_nil_iff.mp hw
    rw [Template.fill_nil]
    exact .nil
  | @blank words cs c hb hs ih =>
    have hc : ∀ d ∈ [c], d ≠ '\x7b' := by
      rintro d hd rfl
      rw [← List.mem_singleton.mp hd] at hb
      cases hb
    have hfill := Template.fill_append (Template.numberIn get?) hc cs
    rw [List.singleton_append] at hfill
    rw [hfill]
    exact .blank c hb (ih hl hw)
  | word word hs ih =>
    obtain ⟨lexeme, rest, rfl, rfl, hrest⟩ := List.map_eq_cons_iff.mp hw
    have htail := ih (fun l hm => hl l (List.mem_cons_of_mem _ hm)) hrest
    rw [Lexeme.fill_append get? (hl lexeme List.mem_cons_self), List.flatMap_cons, List.map_append]
    exact htail.append _

variable {p : Phrase Operand .expression} {template : String}

theorem symbols_substitute (get? : String → Option Value) (p : Phrase Operand .expression) :
    (p.substitute (Operand.filled get?)).symbols = p.lexemes.flatMap (Lexeme.symbols get?) := by
  have hmark : ∀ symbol, Lexeme.symbols get? (.mark symbol) = [id symbol] := fun _ => rfl
  rw [Phrase.lexemes, Phrase.flatMap_spell hmark, Phrase.symbols, Phrase.spell_substitute]
  simp only [List.flatMap_singleton]
  rfl

theorem tokens_interpolate (get? : String → Option Value)
    (ht : Spaced (p.lexemes.map Lexeme.text) template.toList) :
    ∃ ts, tokens (Template.interpolate template get?) = .ok ts ∧
      ts.map Token.symbol = (p.substitute (Operand.filled get?)).symbols := by
  have hplain : ∀ lexeme ∈ p.lexemes, lexeme.IsPlain :=
    Phrase.forall_mem_spell (P := fun _ => True)
      (fun x _ lexeme hm => by rw [List.mem_singleton.mp hm]; trivial) (fun _ hs => hs)
      (p.all_of_forall fun _ => trivial)
  have hnumbers : (p.substitute (Operand.filled get?)).All IsNumber := by
    refine Phrase.all_substitute (p.all_of_forall fun x => ?_)
    cases x with
    | number numeral hn => exact hn
    | placeholder inner => exact Phrase.all_ofDouble (Template.isNaN_numberIn get? _)
  have hspaced := spaced_fill get? ht hplain
  rw [← symbols_substitute] at hspaced
  have htext : (Template.interpolate template get?).toList =
      Template.fill (Template.numberIn get?) template.toList := String.toList_ofList
  rw [tokens, htext]
  exact Phrase.tokensFrom_phrase hnumbers 0 hspaced

theorem depth_substitute (get? : String → Option Value) (p : Phrase Operand .expression) :
    (p.substitute (Operand.filled get?)).depth = p.nesting (Operand.nesting get?) := by
  rw [Phrase.depth, Phrase.nesting_substitute]
  congr 1
  funext x
  cases x with
  | number => rfl
  | placeholder inner => exact Phrase.depth_ofDouble _

theorem value_of_filled (get? : String → Option Value) (p : Phrase Operand .expression) :
    ((p.substitute (Operand.filled get?)).tree numberValue).value doubles =
      (p.tree (Operand.denote get?)).value doubles := by
  rw [Phrase.value_substitute]
  congr 2
  funext x
  cases x with
  | number => rfl
  | placeholder inner => exact Phrase.value_ofDouble (Template.isNaN_numberIn get? _)

/-- Evaluating a template gives the value of its tree with each name standing for its number, if no
place of it is nested too deeply, and is refused otherwise. -/
theorem evaluate_template (p : Phrase Operand .expression) (template : String)
    (ht : Spaced (p.lexemes.map Lexeme.text) template.toList) (get? : String → Option Value) :
    (p.nesting (Operand.nesting get?) ≤ nestingLimit →
      evaluate template get? = .ok ((p.tree (Operand.denote get?)).value doubles)) ∧
    (nestingLimit < p.nesting (Operand.nesting get?) →
      ∃ position, evaluate template get? =
        .error (⟨.nestedTooDeeply, position⟩, Template.interpolate template get?)) := by
  obtain ⟨ts, htokens, hsymbols⟩ := tokens_interpolate get? ht
  rw [← depth_substitute]
  constructor
  · intro hn
    have hparse : parse (Template.interpolate template get?) =
        .ok ((p.substitute (Operand.filled get?)).tree numberValue) := by
      rw [parse, htokens, ok_bind, parseTokens_phrase _ hsymbols hn]
    simp only [evaluate, hparse]
    rw [Tree.evaluate_eq_value, value_of_filled]
  · intro hn
    obtain ⟨position, herror⟩ := parseTokens_phrase_error
      (Template.interpolate template get?).length hsymbols hn
    have hparse : parse (Template.interpolate template get?) =
        .error ⟨.nestedTooDeeply, position⟩ := by
      rw [parse, htokens, ok_bind, herror]
    exact ⟨position, by simp only [evaluate, hparse]⟩

/-- `2 / (x) * y`, with the digit as the only numeral. -/
def quotient : Phrase Operand .expression :=
  have htwo : IsNumber ['2'] := .numeral _ (.intro ['2'] []
    (.whole ['2'] (List.cons_ne_nil _ _) (by simp [AllDigits]; rfl)) .absent)
  .term (.product
    (.product (.unary (.primary (.operand (.number ['2'] htwo)))) .divide
      (.primary (.group (.term (.unary (.primary
        (.operand (.placeholder [' ', 'x', ' '] (by simp [Template.IsInner])))))))))
    .times (.primary (.operand (.placeholder ['y'] (by simp [Template.IsInner])))))

def infiniteX (name : String) : Option Value :=
  if name = "x" then some (.double (.infinite true)) else none

theorem evaluate_quotient : quotient.nesting (Operand.nesting infiniteX) = 2 ∧
    evaluate "2 /({{ x }}) *{{y}}" infiniteX = .ok (Tree.value doubles
      (.binary .mul (.binary .div (.number (numberValue ['2'])) (.number (.infinite true)))
        (.number .zero))) := by
  have ht : Spaced (quotient.lexemes.map Lexeme.text) "2 /({{ x }}) *{{y}}".toList :=
    .word _ (.blank ' ' rfl (.word _ (.word _ (.word _ (.word _ (.blank ' ' rfl (.word _ (.word _
      .nil))))))))
  have htree : quotient.tree (Operand.denote infiniteX) =
      .binary .mul (.binary .div (.number (numberValue ['2'])) (.number (.infinite true)))
        (.number .zero) := rfl
  refine ⟨by decide, ?_⟩
  rw [(evaluate_template quotient _ ht infiniteX).1 (by decide), htree]

end Expression

end Flowsheet
