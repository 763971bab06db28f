import Flowsheet.Expression.Parser
import Flowsheet.Proofs.Expression.Grammar
import Flowsheet.Proofs.Success

/-! The parser reads every phrase of the grammar as its tree, unless the phrase is nested too
deeply. A phrase is read at any level that the tokens before it may have left. -/

namespace Flowsheet.Expression

variable {α : Type} {c : Category}

namespace Level

def addSign (level : Level α) (sign : Sign) : Level α :=
  { level with signs := sign :: level.signs }

def addProduct (level : Level α) (operand : Tree α) (scaling : Scaling) : Level α :=
  { level with product := some (level.closeProduct operand, scaling.operation) }

def addSum (level : Level α) (operand : Tree α) (sign : Sign) : Level α :=
  ⟨some (level.closeSum operand, sign.operation), none, []⟩

end Level

namespace ParseState

def enclosing (outer : List (Level α)) : Nat :=
  outer.foldr (fun level n => level.signs.length + 1 + n) 0

theorem nesting_eq (level : Level α) (outer : List (Level α)) (operand : Option (Tree α)) :
    nesting ⟨level, outer, operand⟩ = level.signs.length + enclosing outer := by
  have hfold : ∀ (outer : List (Level α)) (n : Nat),
      outer.foldl (fun n level => n + level.signs.length + 1) n = n + enclosing outer := by
    intro outer
    induction outer with
    | nil => intro n; rfl
    | cons level outer ih =>
      intro n
      rw [List.foldl_cons, ih, enclosing, enclosing, List.foldr_cons]
      omega
  exact hfold outer _

theorem nesting_group (level : Level α) (outer : List (Level α)) :
    nesting ⟨Level.start, level :: outer, none⟩ = nesting ⟨level, outer, none⟩ + 1 := by
  simp only [nesting_eq, enclosing, List.foldr_cons, Level.start, List.length_nil]
  omega

theorem nesting_sign (level : Level α) (outer : List (Level α)) (sign : Sign) :
    nesting ⟨level.addSign sign, outer, none⟩ = nesting ⟨level, outer, none⟩ + 1 := by
  simp only [nesting_eq, Level.addSign, List.length_cons]
  omega

theorem nesting_eq_of_signs {level next : Level α} (outer : List (Level α))
    (hn : next.signs = level.signs) :
    nesting ⟨next, outer, none⟩ = nesting ⟨level, outer, none⟩ := by
  rw [nesting_eq, nesting_eq, hn]

theorem nesting_addSum (level : Level α) (outer : List (Level α)) (operand : Tree α)
    (sign : Sign) :
    nesting ⟨level.addSum operand sign, outer, none⟩ = nesting ⟨Level.start, outer, none⟩ :=
  nesting_eq_of_signs outer rfl

end ParseState

namespace Level

/-- Where a phrase of the category may begin. -/
def Admits (level : Level α) : Category → Prop
  | .expression => level = start
  | .term => level.product = none ∧ level.signs = []
  | .unary | .primary => True

/-- What a phrase of the category leaves at the level where it began. -/
def Reads (before : Level α) (t : Tree α) (after : Level α) (operand : Tree α) :
    Category → Prop
  | .expression => after.signs = [] ∧ after.closeSum operand = t
  | .term => after.signs = [] ∧ after.sum = before.sum ∧ after.closeProduct operand = t
  | .unary | .primary => after = { before with signs := [] } ∧ operand = applySigns before.signs t

end Level

namespace ParseState

open Level

variable {valueOf : List Char → α} {level : Level α} {outer : List (Level α)} {operand : Tree α}
  {token : Token} {sign : Sign} {scaling : Scaling}

theorem step_number {numeral : List Char} (ht : token.symbol = .number numeral) :
    step valueOf ⟨level, outer, none⟩ token =
      .ok (addOperand level outer (.number (valueOf numeral))) := by
  simp only [step, beginOperand, ht]
  rfl

theorem step_sign (ht : token.symbol = sign.symbol) :
    step valueOf ⟨level, outer, none⟩ token =
      if nesting ⟨level, outer, none⟩ < nestingLimit then
        .ok ⟨level.addSign sign, outer, none⟩
      else .error ⟨.nestedTooDeeply, token.position⟩ := by
  cases sign <;> simp only [step, beginOperand, ht, Sign.symbol] <;> split <;> rfl

theorem step_openParen (ht : token.symbol = .openParen) :
    step valueOf ⟨level, outer, none⟩ token =
      if nesting ⟨level, outer, none⟩ < nestingLimit then
        .ok ⟨.start, level :: outer, none⟩
      else .error ⟨.nestedTooDeeply, token.position⟩ := by
  simp only [step, beginOperand, ht]
  split <;> rfl

theorem step_closeParen {around : Level α} (ht : token.symbol = .closeParen) :
    step valueOf ⟨level, around :: outer, some operand⟩ token =
      .ok (addOperand around outer (level.closeSum operand)) := by
  simp only [step, afterOperand, ht]
  rfl

theorem step_sum (ht : token.symbol = sign.symbol) :
    step valueOf ⟨level, outer, some operand⟩ token =
      .ok ⟨level.addSum operand sign, outer, none⟩ := by
  cases sign <;> simp only [step, afterOperand, ht, Sign.symbol] <;> rfl

theorem step_scaling (ht : token.symbol = scaling.symbol) :
    step valueOf ⟨level, outer, some operand⟩ token =
      .ok ⟨level.addProduct operand scaling, outer, none⟩ := by
  cases scaling <;> simp only [step, afterOperand, ht, Scaling.symbol] <;> rfl

/-- The symbols are read as the tree wherever a phrase of the category may begin, unless that place
is nested too deeply for them. -/
structure Parses (valueOf : List Char → α) (c : Category) (symbols : List Symbol) (t : Tree α)
    (depth : Nat) : Prop where
  ok : ∀ (level : Level α) (outer : List (Level α)) {ts : List Token}, level.Admits c →
    ts.map Token.symbol = symbols → nesting ⟨level, outer, none⟩ + depth ≤ nestingLimit →
    ∃ after operand, level.Reads t after operand c ∧
      ts.foldlM (step valueOf) ⟨level, outer, none⟩ = .ok ⟨after, outer, some operand⟩
  error : ∀ (level : Level α) (outer : List (Level α)) {ts : List Token}, level.Admits c →
    ts.map Token.symbol = symbols → nesting ⟨level, outer, none⟩ ≤ nestingLimit →
    nestingLimit < nesting ⟨level, outer, none⟩ + depth →
    ∃ position, ts.foldlM (step valueOf) ⟨level, outer, none⟩ =
      .error ⟨.nestedTooDeeply, position⟩

namespace Parses

variable {left right symbols : List Symbol} {t u : Tree α} {m n : Nat}

theorem number (numeral : List Char) :
    Parses valueOf .primary [.number numeral] (.number (valueOf numeral)) 0 where
  ok _ _ _ _ hts _ := by
    obtain ⟨token, rfl, ht⟩ := List.map_eq_singleton_iff.mp hts
    exact ⟨_, _, ⟨rfl, rfl⟩, foldlM_cons_ok (step_number ht)⟩
  error _ _ _ _ _ hs hn := by omega

theorem group (hp : Parses valueOf .expression symbols t n) :
    Parses valueOf .primary (.openParen :: (symbols ++ [.closeParen])) t (n + 1) where
  ok level outer _ _ hts hn := by
    obtain ⟨opening, rest, rfl, ho, hrest⟩ := List.map_eq_cons_iff.mp hts
    obtain ⟨inner, last, rfl, hi, hl⟩ := List.map_eq_append_iff.mp hrest
    obtain ⟨closing, rfl, hc⟩ := List.map_eq_singleton_iff.mp hl
    have hinner := nesting_group level outer
    obtain ⟨after, operand, ⟨-, hsum⟩, he⟩ := hp.ok .start (level :: outer) rfl hi (by omega)
    refine ⟨_, _, ⟨rfl, rfl⟩, ?_⟩
    rw [foldlM_cons_ok ((step_openParen ho).trans (if_pos (by omega))), foldlM_append_ok he,
      foldlM_cons_ok (step_closeParen hc), hsum]
    rfl
  error level outer _ _ hts hs hn := by
    obtain ⟨opening, rest, rfl, ho, hrest⟩ := List.map_eq_cons_iff.mp hts
    obtain ⟨inner, last, rfl, hi, -⟩ := List.map_eq_append_iff.mp hrest
    by_cases hlt : nesting ⟨level, outer, none⟩ < nestingLimit
    · have hinner := nesting_group level outer
      obtain ⟨position, he⟩ := hp.error .start (level :: outer) rfl hi (by omega) (by omega)
      refine ⟨position, ?_⟩
      rw [foldlM_cons_ok ((step_openParen ho).trans (if_pos hlt)), foldlM_append_error last he]
    · exact ⟨_, foldlM_cons_error _ ((step_openParen ho).trans (if_neg hlt))⟩

theorem primary (hp : Parses valueOf .primary symbols t n) :
    Parses valueOf .unary symbols t n :=
  ⟨hp.ok, hp.error⟩

theorem signed (sign : Sign) (hp : Parses valueOf .unary symbols t n) :
    Parses valueOf .unary (sign.symbol :: symbols) (.signed sign t) (n + 1) where
  ok level outer _ _ hts hn := by
    obtain ⟨first, rest, rfl, hf, hrest⟩ := List.map_eq_cons_iff.mp hts
    have hinner := nesting_sign level outer sign
    obtain ⟨after, operand, ⟨rfl, rfl⟩, hu⟩ :=
      hp.ok (level.addSign sign) outer trivial hrest (by omega)
    refine ⟨_, _, ⟨rfl, rfl⟩, ?_⟩
    rw [foldlM_cons_ok ((step_sign hf).trans (if_pos (by omega))), hu]
    rfl
  error level outer _ _ hts hs hn := by
    obtain ⟨first, rest, rfl, hf, hrest⟩ := List.map_eq_cons_iff.mp hts
    by_cases hlt : nesting ⟨level, outer, none⟩ < nestingLimit
    · have hinner := nesting_sign level outer sign
      obtain ⟨position, hu⟩ :=
        hp.error (level.addSign sign) outer trivial hrest (by omega) (by omega)
      refine ⟨position, ?_⟩
      rw [foldlM_cons_ok ((step_sign hf).trans (if_pos hlt)), hu]
    · exact ⟨_, foldlM_cons_error _ ((step_sign hf).trans (if_neg hlt))⟩

theorem unary (hp : Parses valueOf .unary symbols t n) : Parses valueOf .term symbols t n where
  ok level outer _ hadmits hts hn := by
    obtain ⟨after, operand, ⟨hafter, hoperand⟩, hu⟩ := hp.ok level outer trivial hts hn
    refine ⟨after, operand, ⟨by rw [hafter], by rw [hafter], ?_⟩, hu⟩
    rw [hafter, hoperand]
    simp only [closeProduct, hadmits.1, hadmits.2]
    rfl
  error level outer _ _ := hp.error level outer trivial

theorem product (hl : Parses valueOf .term left t m) (scaling : Scaling)
    (hr : Parses valueOf .unary right u n) :
    Parses valueOf .term (left ++ scaling.symbol :: right) (.binary scaling.operation t u)
      (max m n) where
  ok level outer _ hadmits hts hn := by
    obtain ⟨front, rest, rfl, hfront, hrest⟩ := List.map_eq_append_iff.mp hts
    obtain ⟨middle, back, rfl, hm, hback⟩ := List.map_eq_cons_iff.mp hrest
    obtain ⟨between, factor, ⟨hsigns, hsum, hfactor⟩, hf⟩ :=
      hl.ok level outer hadmits hfront (by omega)
    -- No sign is left over, so the right part begins no deeper than the left one did.
    have hnil : (between.addProduct factor scaling).signs = [] := hsigns
    have hnext := nesting_eq_of_signs outer (hnil.trans hadmits.2.symm)
    obtain ⟨after, operand, ⟨hafter, hoperand⟩, hb⟩ :=
      hr.ok (between.addProduct factor scaling) outer trivial hback (by omega)
    refine ⟨after, operand, ⟨by rw [hafter], by rw [hafter, ← hsum]; rfl, ?_⟩, ?_⟩
    · rw [hafter, hoperand, hnil]
      exact congrArg (Tree.binary scaling.operation · u) hfactor
    · rw [foldlM_append_ok hf, foldlM_cons_ok (step_scaling hm), hb]
  error level outer _ hadmits hts hs hn := by
    obtain ⟨front, rest, rfl, hfront, hrest⟩ := List.map_eq_append_iff.mp hts
    obtain ⟨middle, back, rfl, hm, hback⟩ := List.map_eq_cons_iff.mp hrest
    by_cases hdeep : nestingLimit < nesting ⟨level, outer, none⟩ + m
    · obtain ⟨position, hf⟩ := hl.error level outer hadmits hfront hs hdeep
      exact ⟨position, foldlM_append_error _ hf⟩
    · obtain ⟨between, factor, ⟨hsigns, -⟩, hf⟩ := hl.ok level outer hadmits hfront (by omega)
      have hnil : (between.addProduct factor scaling).signs = [] := hsigns
      have hnext := nesting_eq_of_signs outer (hnil.trans hadmits.2.symm)
      obtain ⟨position, hb⟩ :=
        hr.error (between.addProduct factor scaling) outer trivial hback (by omega) (by omega)
      refine ⟨position, ?_⟩
      rw [foldlM_append_ok hf, foldlM_cons_ok (step_scaling hm), hb]

theorem term (hp : Parses valueOf .term symbols t n) :
    Parses valueOf .expression symbols t n where
  ok level outer _ hadmits hts hn := by
    obtain rfl := hadmits
    obtain ⟨after, operand, ⟨hsigns, hsum, hproduct⟩, ht⟩ := hp.ok .start outer ⟨rfl, rfl⟩ hts hn
    refine ⟨after, operand, ⟨hsigns, ?_⟩, ht⟩
    rw [closeSum, hsum, hproduct]
    rfl
  error level outer _ hadmits := by
    obtain rfl := hadmits
    exact hp.error .start outer ⟨rfl, rfl⟩

theorem sum (hl : Parses valueOf .expression left t m) (sign : Sign)
    (hr : Parses valueOf .term right u n) :
    Parses valueOf .expression (left ++ sign.symbol :: right) (.binary sign.operation t u)
      (max m n) where
  ok level outer _ hadmits hts hn := by
    obtain rfl := hadmits
    obtain ⟨front, rest, rfl, hfront, hrest⟩ := List.map_eq_append_iff.mp hts
    obtain ⟨middle, back, rfl, hm, hback⟩ := List.map_eq_cons_iff.mp hrest
    obtain ⟨between, summand, ⟨-, hsummand⟩, hf⟩ := hl.ok .start outer rfl hfront (by omega)
    have hnext := nesting_addSum between outer summand sign
    obtain ⟨after, operand, ⟨hnil, hsum, hproduct⟩, hb⟩ :=
      hr.ok (between.addSum summand sign) outer ⟨rfl, rfl⟩ hback (by omega)
    refine ⟨after, operand, ⟨hnil, ?_⟩, ?_⟩
    · rw [closeSum, hsum, hproduct]
      exact congrArg (Tree.binary sign.operation · u) hsummand
    · rw [foldlM_append_ok hf, foldlM_cons_ok (step_sum hm), hb]
  error level outer _ hadmits hts hs hn := by
    obtain rfl := hadmits
    obtain ⟨front, rest, rfl, hfront, hrest⟩ := List.map_eq_append_iff.mp hts
    obtain ⟨middle, back, rfl, hm, hback⟩ := List.map_eq_cons_iff.mp hrest
    by_cases hdeep : nestingLimit < nesting (α := α) ⟨.start, outer, none⟩ + m
    · obtain ⟨position, hf⟩ := hl.error .start outer rfl hfront hs hdeep
      exact ⟨position, foldlM_append_error _ hf⟩
    · obtain ⟨between, summand, -, hf⟩ := hl.ok .start outer rfl hfront (by omega)
      have hnext := nesting_addSum between outer summand sign
      obtain ⟨position, hb⟩ :=
        hr.error (between.addSum summand sign) outer ⟨rfl, rfl⟩ hback (by omega) (by omega)
      refine ⟨position, ?_⟩
      rw [foldlM_append_ok hf, foldlM_cons_ok (step_sum hm), hb]

end Parses

/-- The parser follows the derivation of a phrase. -/
theorem parses_phrase (p : Phrase (List Char) c) :
    Parses valueOf c p.symbols (p.tree valueOf) p.depth := by
  induction p with
  | operand numeral => exact .number numeral
  | group e ih => exact ih.group
  | primary p ih => exact ih.primary
  | signed sign u ih => exact ih.signed sign
  | unary u ih => exact ih.unary
  | product t scaling u iht ihu => exact iht.product scaling ihu
  | term t ih => exact ih.term
  | sum e sign t ihe iht => exact ihe.sum sign iht

end ParseState

variable {valueOf : List Char → α} {p : Phrase (List Char) .expression} {ts : List Token}

theorem parseTokens_eq (length : Nat) (hts : ts ≠ []) : parseTokens valueOf length ts =
    (ts.foldlM (ParseState.step valueOf) .start >>= ParseState.finish length) := by
  cases ts with
  | nil => exact absurd rfl hts
  | cons token ts => rfl

theorem parseTokens_eq_ok {length : Nat} {t : Tree α} : parseTokens valueOf length ts = .ok t ↔
    ∃ s, ts.foldlM (ParseState.step valueOf) .start = .ok s ∧ s.finish length = .ok t := by
  cases ts with
  | nil =>
    refine iff_of_false (fun hp => nomatch hp) ?_
    rintro ⟨s, hs, hf⟩
    cases hs
    cases hf
  | cons token ts =>
    rw [parseTokens_eq length (List.cons_ne_nil token ts)]
    exact bind_eq_ok

theorem ne_nil_of_symbols (hts : ts.map Token.symbol = p.symbols) : ts ≠ [] :=
  fun hnil => p.symbols_ne_nil (by rw [← hts, hnil, List.map_nil])

theorem parseTokens_phrase (length : Nat) (hts : ts.map Token.symbol = p.symbols)
    (hn : p.depth ≤ nestingLimit) : parseTokens valueOf length ts = .ok (p.tree valueOf) := by
  have hstart : ParseState.nesting (α := α) ⟨.start, [], none⟩ = 0 := rfl
  obtain ⟨after, operand, ⟨-, hsum⟩, hp⟩ :=
    (ParseState.parses_phrase p).ok .start [] rfl hts (by omega)
  rw [parseTokens_eq length (ne_nil_of_symbols hts), ParseState.start, hp, ok_bind, ← hsum]
  rfl

theorem parseTokens_phrase_error (length : Nat) (hts : ts.map Token.symbol = p.symbols)
    (hn : nestingLimit < p.depth) :
    ∃ position, parseTokens valueOf length ts = .error ⟨.nestedTooDeeply, position⟩ := by
  have hstart : ParseState.nesting (α := α) ⟨.start, [], none⟩ = 0 := rfl
  obtain ⟨position, hp⟩ :=
    (ParseState.parses_phrase p).error .start [] rfl hts (by omega) (by omega)
  refine ⟨position, ?_⟩
  rw [parseTokens_eq length (ne_nil_of_symbols hts), ParseState.start, hp]
  rfl

end Flowsheet.Expression
