import Mathlib.Logic.Basic
import Flowsheet.Proofs.Expression.Parsing

/-! What the symbols read so far amount to: derivations that are finished, and others that wait for
their right operand. A reading gives back the symbols it was made from, and the symbols of a
derivation are read as that derivation and no other. -/

namespace Flowsheet.Expression

variable {α : Type} {c : Category}

/-- A phrase with numerals for its operands. -/
abbrev Derivation := Phrase (List Char)

/-- The derivations that wait at one level for their right operand. -/
structure Draft where
  sum : Option (Derivation .expression × Sign)
  product : Option (Derivation .term × Scaling)

namespace Draft

def start : Draft := ⟨none, none⟩

def closeProduct (d : Draft) (u : Derivation .unary) : Derivation .term :=
  match d.product with
  | some (t, scaling) => .product t scaling u
  | none => .unary u

def closeSum (d : Draft) (u : Derivation .unary) : Derivation .expression :=
  match d.sum with
  | some (e, sign) => .sum e sign (d.closeProduct u)
  | none => .term (d.closeProduct u)

def symbols (d : Draft) : List Symbol :=
  (d.sum.elim [] fun (e, sign) => e.symbols ++ [sign.symbol]) ++
    d.product.elim [] fun (t, scaling) => t.symbols ++ [scaling.symbol]

def level (leaf : List Char → α) (signs : List Sign) (d : Draft) : Level α :=
  ⟨d.sum.map fun (e, sign) => (e.tree leaf, sign.operation),
    d.product.map fun (t, scaling) => (t.tree leaf, scaling.operation), signs⟩

theorem symbols_closeSum (d : Draft) (u : Derivation .unary) :
    (d.closeSum u).symbols = d.symbols ++ u.symbols := by
  obtain ⟨sum, product⟩ := d
  rcases sum with _ | ⟨e, sign⟩ <;> rcases product with _ | ⟨t, scaling⟩ <;>
    simp [closeSum, closeProduct, symbols, Phrase.symbols, Phrase.spell]

theorem symbols_closeProduct (d : Draft) (u : Derivation .unary) (scaling : Scaling) :
    (⟨d.sum, some (d.closeProduct u, scaling)⟩ : Draft).symbols =
      d.symbols ++ u.symbols ++ [scaling.symbol] := by
  obtain ⟨sum, product⟩ := d
  rcases product with _ | ⟨t, scaling⟩ <;>
    simp [closeProduct, symbols, Phrase.symbols, Phrase.spell]

theorem tree_closeProduct (leaf : List Char → α) (d : Draft) (u : Derivation .unary) :
    (d.closeProduct u).tree leaf = (d.level leaf []).closeProduct (u.tree leaf) := by
  obtain ⟨sum, product⟩ := d
  rcases product with _ | ⟨t, scaling⟩ <;> rfl

theorem tree_closeSum (leaf : List Char → α) (d : Draft) (u : Derivation .unary) :
    (d.closeSum u).tree leaf = (d.level leaf []).closeSum (u.tree leaf) := by
  rw [Level.closeSum, ← tree_closeProduct]
  obtain ⟨sum, product⟩ := d
  rcases sum with _ | ⟨e, sign⟩ <;> rfl

end Draft

/-- The operand with the signs before it, the latest of which is the innermost. -/
def Derivation.withSigns (signs : List Sign) (u : Derivation .unary) : Derivation .unary :=
  signs.foldl (fun u sign => .signed sign u) u

theorem Derivation.symbols_withSigns (signs : List Sign) (u : Derivation .unary) :
    (withSigns signs u).symbols = signs.reverse.map Sign.symbol ++ u.symbols := by
  induction signs generalizing u with
  | nil => rfl
  | cons sign signs ih =>
    have hu : (Phrase.signed sign u).symbols = sign.symbol :: u.symbols := rfl
    rw [withSigns, List.foldl_cons, ← withSigns, ih, hu]
    simp

theorem Derivation.tree_withSigns (leaf : List Char → α) (signs : List Sign)
    (u : Derivation .unary) :
    (withSigns signs u).tree leaf = Level.applySigns signs (u.tree leaf) := by
  induction signs generalizing u with
  | nil => rfl
  | cons sign signs ih => exact ih (.signed sign u)

/-- The drafts and signs around an open parenthesis, the innermost first. -/
abbrev Surroundings := List (Draft × List Sign)

inductive Reading where
  | before (draft : Draft) (signs : List Sign) (outer : Surroundings)
  | after (draft : Draft) (operand : Derivation .unary) (outer : Surroundings)

namespace Reading

open Flowsheet.Expression.Derivation

def start : Reading := .before .start [] []

def next : Reading → Symbol → Option Reading
  | .before d signs outer, symbol => match symbol with
    | .number numeral =>
      some (.after d (withSigns signs (.primary (.operand numeral))) outer)
    | .plus => some (.before d (.plus :: signs) outer)
    | .minus => some (.before d (.minus :: signs) outer)
    | .openParen => some (.before .start [] ((d, signs) :: outer))
    | _ => none
  | .after d u outer, symbol => match symbol with
    | .plus => some (.before ⟨some (d.closeSum u, .plus), none⟩ [] outer)
    | .minus => some (.before ⟨some (d.closeSum u, .minus), none⟩ [] outer)
    | .times => some (.before ⟨d.sum, some (d.closeProduct u, .times)⟩ [] outer)
    | .divide => some (.before ⟨d.sum, some (d.closeProduct u, .divide)⟩ [] outer)
    | .closeParen => match outer with
      | (around, signs) :: outer =>
        some (.after around (withSigns signs (.primary (.group (d.closeSum u)))) outer)
      | [] => none
    | _ => none

def read (r : Reading) (symbols : List Symbol) : Option Reading :=
  symbols.foldlM next r

def surrounding : Surroundings → List Symbol
  | [] => []
  | (d, signs) :: outer =>
    surrounding outer ++ d.symbols ++ signs.reverse.map Sign.symbol ++ [.openParen]

def symbols : Reading → List Symbol
  | .before d signs outer => surrounding outer ++ d.symbols ++ signs.reverse.map Sign.symbol
  | .after d u outer => surrounding outer ++ d.symbols ++ u.symbols

variable {r s : Reading}

theorem symbols_next {symbol : Symbol} (hn : r.next symbol = some s) :
    s.symbols = r.symbols ++ [symbol] := by
  have hnumeral : ∀ numeral : List Char,
      (Phrase.primary (.operand numeral)).symbols = [.number numeral] := fun _ => rfl
  have hgroup : ∀ e : Derivation .expression,
      (Phrase.primary (.group e)).symbols = .openParen :: (e.symbols ++ [.closeParen]) :=
    fun _ => rfl
  cases r with
  | before d signs outer =>
    cases symbol <;> cases hn <;>
      simp [symbols, surrounding, symbols_withSigns, hnumeral, Draft.start, Draft.symbols,
        Sign.symbol]
  | after d u outer =>
    have hproduct := d.symbols_closeProduct u
    cases symbol with
    | plus | minus =>
      cases hn
      simp [symbols, Draft.symbols, Draft.symbols_closeSum, Sign.symbol]
    | times | divide =>
      cases hn
      simp [symbols, hproduct, Scaling.symbol]
    | closeParen =>
      rcases outer with _ | ⟨⟨around, signs⟩, outer⟩ <;> cases hn
      simp [symbols, surrounding, symbols_withSigns, hgroup, Draft.symbols_closeSum]
    | number | openParen => cases hn

theorem symbols_read {symbols : List Symbol} (hr : r.read symbols = some s) :
    s.symbols = r.symbols ++ symbols := by
  induction symbols generalizing r with
  | nil =>
    cases hr
    rw [List.append_nil]
  | cons symbol rest ih =>
    obtain ⟨t, hn, ht⟩ := Option.bind_eq_some_iff.mp hr
    rw [ih ht, symbols_next hn, List.append_assoc, List.singleton_append]

theorem read_cons {symbol : Symbol} {rest : List Symbol} (hn : r.next symbol = some s) :
    r.read (symbol :: rest) = s.read rest := by
  rw [read, List.foldlM_cons, hn]
  rfl

theorem read_append {left right : List Symbol} (hl : r.read left = some s) :
    r.read (left ++ right) = s.read right := by
  rw [read] at hl
  rw [read, List.foldlM_append, hl]
  rfl

theorem next_sign (d : Draft) (signs : List Sign) (outer : Surroundings) (sign : Sign) :
    (before d signs outer).next sign.symbol = some (.before d (sign :: signs) outer) := by
  cases sign <;> rfl

theorem next_sum (d : Draft) (u : Derivation .unary) (outer : Surroundings) (sign : Sign) :
    (after d u outer).next sign.symbol =
      some (.before ⟨some (d.closeSum u, sign), none⟩ [] outer) := by
  cases sign <;> rfl

theorem next_scaling (d : Draft) (u : Derivation .unary) (outer : Surroundings)
    (scaling : Scaling) : (after d u outer).next scaling.symbol =
      some (.before ⟨d.sum, some (d.closeProduct u, scaling)⟩ [] outer) := by
  cases scaling <;> rfl

/-- The derivation is found by reading its symbols, wherever a phrase of its category may begin. -/
def Finds : {c : Category} → Derivation c → Prop
  | .expression, e => ∀ outer, ∃ d u,
      (before .start [] outer).read e.symbols = some (.after d u outer) ∧ d.closeSum u = e
  | .term, t => ∀ sum outer, ∃ product u,
      (before ⟨sum, none⟩ [] outer).read t.symbols = some (.after ⟨sum, product⟩ u outer) ∧
        (⟨sum, product⟩ : Draft).closeProduct u = t
  | .unary, u => ∀ d signs outer,
      (before d signs outer).read u.symbols = some (.after d (withSigns signs u) outer)
  | .primary, p => ∀ d signs outer,
      (before d signs outer).read p.symbols = some (.after d (withSigns signs (.primary p)) outer)

theorem finds (p : Derivation c) : Finds p := by
  induction p with
  | operand numeral => exact fun _ _ _ => rfl
  | group e ih =>
    intro d signs outer
    obtain ⟨inner, u, hread, rfl⟩ := ih ((d, signs) :: outer)
    have hopen : (before d signs outer).next .openParen =
        some (.before .start [] ((d, signs) :: outer)) := rfl
    exact (read_cons hopen).trans ((read_append hread).trans rfl)
  | primary p ih => exact ih
  | signed sign u ih =>
    intro d signs outer
    exact (read_cons (next_sign d signs outer sign)).trans (ih d (sign :: signs) outer)
  | unary u ih => exact fun sum outer => ⟨none, u, ih ⟨sum, none⟩ [] outer, rfl⟩
  | product t scaling u iht ihu =>
    intro sum outer
    obtain ⟨product, v, hread, rfl⟩ := iht sum outer
    refine ⟨some (_, scaling), u, ?_, rfl⟩
    exact (read_append hread).trans ((read_cons (next_scaling _ v outer scaling)).trans (ihu _ [] outer))
  | term t ih =>
    intro outer
    obtain ⟨product, u, hread, rfl⟩ := ih none outer
    exact ⟨_, u, hread, rfl⟩
  | sum e sign t ihe iht =>
    intro outer
    obtain ⟨d, v, hfront, rfl⟩ := ihe outer
    obtain ⟨product, u, hback, rfl⟩ := iht (some (d.closeSum v, sign)) outer
    exact ⟨_, u, (read_append hfront).trans ((read_cons (next_sum d v outer sign)).trans hback), rfl⟩

end Reading

/-- No two derivations of an expression have the same symbols. -/
theorem Derivation.symbols_injective {e f : Derivation .expression} (h : e.symbols = f.symbols) :
    e = f := by
  obtain ⟨d, u, he, rfl⟩ := Reading.finds e []
  obtain ⟨d', u', hf, rfl⟩ := Reading.finds f []
  rw [h, hf] at he
  cases he
  rfl

namespace Reading

open Flowsheet.Expression.Derivation

variable {r : Reading} {token : Token} {leaf : List Char → α} {t : ParseState α}

def state (leaf : List Char → α) : Reading → ParseState α
  | .before d signs outer =>
    ⟨d.level leaf signs, outer.map fun (d, signs) => d.level leaf signs, none⟩
  | .after d u outer =>
    ⟨d.level leaf [], outer.map fun (d, signs) => d.level leaf signs, some (u.tree leaf)⟩

theorem state_withSigns (d : Draft) (signs : List Sign) (p : Derivation .primary)
    (outer : Surroundings) :
    (after d (withSigns signs (.primary p)) outer).state leaf =
      .addOperand (d.level leaf signs) (outer.map fun (d, signs) => d.level leaf signs)
        (p.tree leaf) := by
  rw [state, tree_withSigns]
  rfl

theorem next_of_step (hs : (r.state leaf).step leaf token = .ok t) :
    ∃ s, r.next token.symbol = some s ∧ t = s.state leaf := by
  obtain ⟨symbol, position⟩ := token
  rw [ParseState.step, mapError_eq_ok] at hs
  cases r with
  | before d signs outer =>
    cases symbol with
    | number numeral =>
      cases hs
      exact ⟨_, rfl, (state_withSigns d signs (.operand numeral) outer).symm⟩
    | plus | minus | openParen =>
      refine ⟨_, rfl, ?_⟩
      obtain ⟨-, hok⟩ | ⟨-, herror⟩ := ite_eq_iff.mp hs
      · exact (Except.ok.inj hok).symm
      · cases herror
    | times | divide | closeParen => cases hs
  | after d u outer =>
    have hsum := d.tree_closeSum leaf u
    have hproduct := d.tree_closeProduct leaf u
    cases symbol with
    | plus | minus =>
      cases hs
      refine ⟨_, rfl, ?_⟩
      simp only [state, Draft.level, Option.map_some, hsum]
      rfl
    | times | divide =>
      cases hs
      refine ⟨_, rfl, ?_⟩
      simp only [state, Draft.level, Option.map_some, hproduct]
      rfl
    | closeParen =>
      rcases outer with _ | ⟨⟨around, signs⟩, outer⟩ <;> cases hs
      refine ⟨_, rfl, ?_⟩
      rw [state_withSigns, Phrase.tree, hsum]
      rfl
    | number | openParen => cases outer <;> cases hs

theorem read_of_foldlM {ts : List Token} (hs : ts.foldlM (ParseState.step leaf) (r.state leaf) = .ok t) :
    ∃ s, r.read (ts.map Token.symbol) = some s ∧ t = s.state leaf := by
  induction ts generalizing r with
  | nil => exact ⟨r, rfl, (Except.ok.inj hs).symm⟩
  | cons token ts ih =>
    rw [List.foldlM_cons] at hs
    obtain ⟨next, hnext, hrest⟩ := bind_eq_ok.mp hs
    obtain ⟨s, hn, rfl⟩ := next_of_step hnext
    obtain ⟨last, hread, ht⟩ := ih hrest
    exact ⟨last, (read_cons hn).trans hread, ht⟩

end Reading

/-- What the parser accepts has a derivation. -/
theorem exists_derivation_of_parseTokens {leaf : List Char → α} {length : Nat} {ts : List Token}
    {t : Tree α} (hp : parseTokens leaf length ts = .ok t) :
    ∃ e : Derivation .expression, e.symbols = ts.map Token.symbol ∧ e.tree leaf = t := by
  obtain ⟨state, hs, hf⟩ := parseTokens_eq_ok.mp hp
  obtain ⟨r, hread, rfl⟩ := Reading.read_of_foldlM (r := .start) hs
  have hsymbols := Reading.symbols_read hread
  cases r with
  | before d signs outer => cases hf
  | after d u outer =>
    cases outer with
    | cons around outer => cases hf
    | nil =>
      refine ⟨d.closeSum u, ?_, ?_⟩
      · rw [d.symbols_closeSum]
        exact hsymbols
      · rw [d.tree_closeSum]
        exact Except.ok.inj hf

end Flowsheet.Expression
