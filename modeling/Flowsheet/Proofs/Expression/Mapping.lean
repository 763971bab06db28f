import Flowsheet.Expression.Parser
import Flowsheet.Proofs.Success

/-! The parser does not look into the numbers that it reads. With other values for the numerals it
refuses the same texts, and builds the same trees with the other values in them. -/

namespace Flowsheet.Expression

variable {α β : Type} (f : α → β)

def Tree.map : Tree α → Tree β
  | .number x => .number (f x)
  | .signed sign t => .signed sign t.map
  | .binary operation l r => .binary operation l.map r.map

variable {f}

/-- Operations that agree along the map give values that do. -/
theorem Tree.value_map {A : Arithmetic α} {B : Arithmetic β}
    (hn : ∀ x, B.negate (f x) = f (A.negate x))
    (ha : ∀ operation x y, B.apply operation (f x) (f y) = f (A.apply operation x y))
    (t : Tree α) : (t.map f).value B = f (t.value A) := by
  induction t with
  | number x => rfl
  | signed sign t ih => cases sign <;> simp only [map, value, ih, hn]
  | binary operation l r ihl ihr => simp only [map, value, ihl, ihr, ha]

variable (f)

namespace Level

def mapWaiting : Option (Tree α × Operation) → Option (Tree β × Operation)
  | some (t, operation) => some (t.map f, operation)
  | none => none

def map (level : Level α) : Level β :=
  ⟨mapWaiting f level.sum, mapWaiting f level.product, level.signs⟩

theorem map_join (waiting : Option (Tree α × Operation)) (t : Tree α) :
    (join waiting t).map f = join (mapWaiting f waiting) (t.map f) := by
  cases waiting <;> rfl

theorem map_applySigns (signs : List Sign) (t : Tree α) :
    (applySigns signs t).map f = applySigns signs (t.map f) := by
  induction signs generalizing t with
  | nil => rfl
  | cons sign signs ih => exact ih (.signed sign t)

theorem map_closeProduct (level : Level α) (t : Tree α) :
    (level.closeProduct t).map f = (level.map f).closeProduct (t.map f) :=
  map_join f level.product t

theorem map_closeSum (level : Level α) (t : Tree α) :
    (level.closeSum t).map f = (level.map f).closeSum (t.map f) := by
  rw [closeSum, map_join, map_closeProduct]
  rfl

end Level

namespace ParseState

def map (s : ParseState α) : ParseState β :=
  ⟨s.level.map f, s.outer.map (Level.map f), s.operand.map (Tree.map f)⟩

theorem nesting_map (s : ParseState α) : (s.map f).nesting = s.nesting := by
  rw [nesting, nesting, map, List.foldl_map]
  rfl

theorem map_addOperand (level : Level α) (outer : List (Level α)) (t : Tree α) :
    (addOperand level outer t).map f =
      addOperand (level.map f) (outer.map (Level.map f)) (t.map f) := by
  rw [addOperand, map, Option.map_some, Level.map_applySigns]
  rfl

variable {f} {v : List Char → α} {w : List Char → β}

theorem beginOperand_map (s : ParseState α) {symbol : Symbol}
    (hw : ∀ numeral, symbol = .number numeral → w numeral = f (v numeral)) :
    (s.map f).beginOperand w symbol = (s.beginOperand v symbol).map (map f) := by
  cases symbol with
  | number numeral =>
    simp only [beginOperand, hw numeral rfl, Except.map, map_addOperand]
    rfl
  | plus | minus | openParen =>
    simp only [beginOperand, nesting_map]
    split <;> rfl
  | times | divide | closeParen => rfl

theorem afterOperand_map (s : ParseState α) (operand : Tree α) (symbol : Symbol) :
    (s.map f).afterOperand (operand.map f) symbol = (s.afterOperand operand symbol).map (map f) := by
  obtain ⟨level, outer, waiting⟩ := s
  have hsum := level.map_closeSum f operand
  have hproduct := level.map_closeProduct f operand
  cases symbol with
  | plus | minus | times | divide =>
    simp only [afterOperand, map, Except.map, Level.map, Level.mapWaiting, hsum, hproduct]
    rfl
  | closeParen =>
    cases outer with
    | nil => rfl
    | cons around outer =>
      simp only [afterOperand, map, Except.map, List.map_cons, ← hsum]
      rw [← map_addOperand]
      rfl
  | number | openParen => cases outer <;> rfl

theorem step_map (s : ParseState α) {token : Token}
    (hw : ∀ numeral, token.symbol = .number numeral → w numeral = f (v numeral)) :
    (s.map f).step w token = (s.step v token).map (map f) := by
  have hfault : ∀ (x : Except Cause (ParseState α)) (g : Cause → SyntaxFault),
      (x.map (map f)).mapError g = (x.mapError g).map (map f) := by
    intro x g
    cases x <;> rfl
  unfold step
  cases hs : s.operand with
  | none =>
    have ht : (s.map f).operand = none := by rw [map, hs, Option.map_none]
    simp only [ht, beginOperand_map s hw, hfault]
  | some operand =>
    have ht : (s.map f).operand = some (operand.map f) := by rw [map, hs, Option.map_some]
    simp only [ht, afterOperand_map s operand token.symbol, hfault]

theorem foldlM_step_map (s : ParseState α) {ts : List Token}
    (hw : ∀ token ∈ ts, ∀ numeral, token.symbol = .number numeral → w numeral = f (v numeral)) :
    ts.foldlM (step w) (s.map f) = (ts.foldlM (step v) s).map (map f) := by
  induction ts generalizing s with
  | nil => rfl
  | cons token ts ih =>
    have hstep := step_map s (hw token List.mem_cons_self)
    cases hs : s.step v token with
    | error fault =>
      rw [hs] at hstep
      rw [foldlM_cons_error ts hs, foldlM_cons_error ts hstep]
      rfl
    | ok next =>
      rw [hs] at hstep
      rw [foldlM_cons_ok hs, foldlM_cons_ok hstep]
      exact ih next fun t ht => hw t (List.mem_cons_of_mem token ht)

theorem finish_map (length : Nat) (s : ParseState α) :
    (s.map f).finish length = (s.finish length).map (Tree.map f) := by
  obtain ⟨level, outer, operand⟩ := s
  cases operand with
  | none => rfl
  | some operand =>
    cases outer with
    | nil => exact congrArg Except.ok (level.map_closeSum f operand).symm
    | cons around outer => rfl

end ParseState

theorem parseTokens_map {f : α → β} {v : List Char → α} {w : List Char → β} (length : Nat)
    {ts : List Token}
    (hw : ∀ token ∈ ts, ∀ numeral, token.symbol = .number numeral → w numeral = f (v numeral)) :
    parseTokens w length ts = (parseTokens v length ts).map (Tree.map f) := by
  cases ts with
  | nil => rfl
  | cons token ts =>
    have hfold := ParseState.foldlM_step_map (.start) hw
    unfold parseTokens
    cases hs : (token :: ts).foldlM (ParseState.step v) .start with
    | error fault =>
      rw [hs] at hfold
      exact congrArg (· >>= ParseState.finish length) hfold
    | ok last =>
      rw [hs] at hfold
      exact (congrArg (· >>= ParseState.finish length) hfold).trans (last.finish_map length)

end Flowsheet.Expression
