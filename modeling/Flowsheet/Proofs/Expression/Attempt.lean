import Flowsheet.Document.Field
import Flowsheet.Expression.Basic
import Flowsheet.Proofs.Double.Whole
import Flowsheet.Proofs.Expression.Lexing
import Flowsheet.Proofs.Expression.Machine
import Flowsheet.Proofs.Expression.Mapping
import Flowsheet.Proofs.Numeral.Rendering

/-! Evaluation by operations that may have no result, as those on machine numbers do. Each of them is
tried only where it has one, so that an expression fails by its text or not at all. -/

namespace Flowsheet.Expression

open scoped NativePower

/-- Why an operation has no result. -/
inductive Failure where
  | unreadable (written : List Char)
  | overflow (n : Int)
  | notWhole (x : Double)
  | longInteger (n : Int)
  | zeroDivisor (dividend : Double)
  | noOperand
  | malformed (fault : SyntaxFault) (text : String)
deriving DecidableEq, Repr

namespace Attempt

/-- The conversion of a whole number beyond the finite numbers fails. -/
def checkOverflow (n : Int) : Double → Except Failure Double
  | .infinite _ => .error (.overflow n)
  | x => .ok x

def ofWhole (n : Int) : Except Failure Double :=
  checkOverflow n (.ofInt n)

/-- An overflow counts as infinite. -/
def recoverOverflow (negative : Bool) : Except Failure Double → Except Failure Double
  | .error (.overflow _) => .ok (.infinite negative)
  | result => result

/-- The number that a text writes, which has to be a numeral or a word for what is not finite, with
one sign before it at most. -/
def read (written : List Char) : Except Failure Double :=
  let (sign, unsigned) := Numeral.splitSign written
  let negative := sign == ['-']
  match Numeral.split? unsigned with
  | some (numeral, []) => .ok (Numeral.value negative numeral)
  | _ => match Document.nonFinite? negative (Document.smallLetters unsigned) with
    | some x => .ok x
    | none => .error (.unreadable written)

/-- A text is read only if it looks like a number. -/
def ofText (written : List Char) : Except Failure Double :=
  let (sign, unsigned) := Numeral.splitSign written
  if unsigned = Numeral.infinityName then .ok (.infinite (sign == ['-']))
  else match Numeral.split? unsigned with
    | some (_, []) => read written
    | _ => .ok .zero

def number : Value → Except Failure Double
  | .bool b => ofWhole (if b then 1 else 0)
  | .int n => recoverOverflow (n < 0) (ofWhole n)
  | .double x => .ok (if x.isNaN then .zero else x)
  | .text s => ofText (Text.strip Text.isBlank s.toList)
  | _ => .ok .zero

theorem recoverOverflow_checkOverflow {x : Double} {negative : Bool} (n : Int)
    (hx : ∀ sign, x = .infinite sign → sign = negative) :
    recoverOverflow negative (checkOverflow n x) = .ok x := by
  cases x with
  | infinite sign =>
    rw [← hx sign rfl]
    rfl
  | nan => rfl
  | finite => rfl

/-- Truth values are converted without a look at overflows, and never meet one. -/
theorem ofWhole_bool (b : Bool) :
    ofWhole (if b then 1 else 0) = .ok (.ofInt (if b then 1 else 0)) := by
  cases b with
  | false =>
    rw [if_neg Bool.false_ne_true, ofWhole, Double.ofInt_zero]
    rfl
  | true =>
    rw [if_pos rfl, ofWhole, Double.ofInt_one]
    rfl

theorem ofText_eq (written : List Char) : ofText written = .ok (Numeral.read written) := by
  simp only [ofText, Numeral.read, beq_iff_eq]
  split
  · rfl
  · cases hs : Numeral.split? (Numeral.splitSign written).2 with
    | none => rfl
    | some p =>
      obtain ⟨numeral, rest⟩ := p
      cases rest with
      | nil => simp only [read, hs]
      | cons c rest => rfl

theorem number_eq (v : Value) : number v = .ok v.number := by
  cases v with
  | bool b => exact ofWhole_bool b
  | int n => exact recoverOverflow_checkOverflow n fun _ => Double.eq_of_ofUnits_eq_infinite
  | text s => exact ofText_eq _
  | _ => rfl

def wholePart : Double → Except Failure Int
  | .finite negative place => .ok (Double.signed negative (Double.units place / Double.one))
  | x => .error (.notWhole x)

/-- There is a limit to the length of a whole number that is written. -/
def digits (n : Int) : Except Failure (List Char) :=
  let row := Double.decimalDigits n.natAbs
  if Text.longestRow < row.length then .error (.longInteger n)
  else .ok (Double.signText (n < 0) ++ row)

def render (x : Double) : Except Failure (List Char) :=
  match x with
  | .nan _ => .ok Numeral.nanName
  | .infinite negative => .ok (Double.signText negative ++ Numeral.infinityName)
  | .finite .. => do
    let n ← wholePart x
    if x.equalsInt n = true ∧ n.natAbs < 10 ^ Numeral.fullDigits then digits n
    else return x.text.toList

theorem digits_of_lt {n : Int} (hn : n.natAbs < 10 ^ Numeral.fullDigits) :
    digits n = .ok (Double.signText (n < 0) ++ Double.decimalDigits n.natAbs) := by
  have hlength : (Double.decimalDigits n.natAbs).length ≤ Numeral.fullDigits :=
    (Nat.length_toDigits_le_iff (by decide) (by decide)).mpr hn
  have hlimit : Numeral.fullDigits ≤ Text.longestRow := by decide
  exact if_neg (by omega)

theorem render_eq (x : Double) : render x = .ok (Numeral.render x) := by
  cases x with
  | nan => rfl
  | infinite => rfl
  | finite negative place =>
    have hequal := Double.equalsInt_wholePart negative place
    simp only [render, wholePart, ok_bind, hequal, decide_eq_true_eq]
    by_cases hw : Double.units place % Double.one = 0
    · have hwhole : (Double.finite negative place).whole? =
          some (Double.signed negative (Double.units place / Double.one)) := if_pos hw
      rw [Numeral.render_of_whole? hwhole]
      simp only [hw, true_and]
      split
      · next hn => exact digits_of_lt hn
      · rfl
    · rw [Numeral.render_of_not_whole rfl (if_neg hw), if_neg fun h => hw h.1]
      rfl

def numberIn (get? : String → Option Value) (name : String) : Except Failure Double :=
  ((get? name).map number).getD (.ok .zero)

def renderPiece (get? : String → Option Value) : Template.Piece → Except Failure (List Char)
  | .literal c => .ok [c]
  | .placeholder inner => do render (← numberIn get? (Template.name inner))

def fill (get? : String → Option Value) (template : List Char) : Except Failure (List Char) :=
  ((Template.pieces template).mapM (renderPiece get?)).map List.flatten

theorem numberIn_eq (get? : String → Option Value) (name : String) :
    numberIn get? name = .ok (Template.numberIn get? name) := by
  unfold numberIn Template.numberIn
  cases get? name with
  | none => rfl
  | some v => exact number_eq v

theorem renderPiece_eq (get? : String → Option Value) (piece : Template.Piece) :
    renderPiece get? piece = .ok (piece.render (Template.numberIn get?)) := by
  cases piece with
  | literal c => rfl
  | placeholder inner => rw [renderPiece, numberIn_eq, ok_bind, render_eq, Template.Piece.render]

theorem fill_eq (get? : String → Option Value) (template : List Char) :
    fill get? template = .ok (Template.fill (Template.numberIn get?) template) := by
  have hpieces : (Template.pieces template).mapM (renderPiece get?) =
      .ok ((Template.pieces template).map (Template.Piece.render (Template.numberIn get?))) := by
    rw [funext (renderPiece_eq get?)]
    exact List.mapM_pure
  rw [fill, hpieces, Template.fill, List.flatMap_def]
  rfl

/-- The number that a token stands for. -/
def numeral (written : List Char) : Except Failure Double :=
  if written = Numeral.infinityName then .ok (.infinite false) else read written

def quotient (x y : Double) : Except Failure Double :=
  if y.isZero then .error (.zeroDivisor x) else .ok (x.div y)

/-- A zero divisor is told apart before anything is divided. -/
def divide (x y : Double) : Except Failure Double :=
  if ¬ y.isZero then quotient x y
  else if x.isNaN then .ok x
  else if x.isZero then .ok (.nan 0)
  else .ok (.infinite (x.isNegative != y.isNegative))

def apply (operation : Operation) (x y : Double) : Except Failure Double :=
  match operation with
  | .add => .ok (x.add y)
  | .sub => .ok (x.sub y)
  | .mul => .ok (x.mul y)
  | .div => divide x y

/-- Arithmetic on numbers that may have failed to come about. -/
def arithmetic : Arithmetic (Except Failure Double) where
  negate x := x.map Double.negate
  apply operation x y := do apply operation (← x) (← y)

/-- A value is taken off the stack at the end, where there has to be one. -/
def value (t : Tree (Except Failure Double)) : Except Failure Double :=
  match runTasks arithmetic [.visit t] [] with
  | some [x] => x
  | _ => .error .noOperand

theorem numeral_eq {written : List Char} (hn : Numeral.IsNumber written) :
    numeral written = .ok (numberValue written) := by
  cases hn with
  | infinity => rfl
  | notANumber => rfl
  | numeral _ hn =>
    -- The words are not numerals, so neither side takes one for the other.
    have hinfinity : written ≠ Numeral.infinityName := hn.ne_of_split?_eq_none rfl
    have hnan : written ≠ Numeral.nanName := hn.ne_of_split?_eq_none rfl
    simp only [numeral, read, hn.splitSign_eq, hn.split?_eq, numberValue, if_neg hinfinity, if_neg hnan]
    rfl

/-- Every token of every text converts. -/
theorem numeral_of_mem_tokens {text : String} {ts : List Token} (hts : tokens text = .ok ts)
    {token : Token} (ht : token ∈ ts) {written : List Char} (hw : token.symbol = .number written) :
    numeral written = .ok (numberValue written) :=
  numeral_eq (isValid_of_mem_tokensFrom hts token ht written hw)

theorem divide_eq (x y : Double) : divide x y = .ok (x.div y) := by
  unfold divide quotient
  by_cases hy : y.isZero = true
  · rw [if_neg (not_not.mpr hy)]
    cases y with
    | nan => cases hy
    | infinite => cases hy
    | finite sign place =>
      have hplace : place.val = 0 := beq_iff_eq.mp hy
      cases x with
      | nan => rfl
      | infinite => rfl
      | finite negative p =>
        by_cases hp : p.val = 0 <;>
          simp [Double.isNaN, Double.isZero, Double.isNegative, Double.div, hplace, hp]
  · rw [if_pos hy, if_neg hy]

theorem apply_eq (operation : Operation) (x y : Double) :
    apply operation x y = .ok (doubles.apply operation x y) := by
  cases operation with
  | div => exact divide_eq x y
  | _ => rfl

theorem value_map_ok (t : Tree Double) : value (t.map .ok) = .ok (t.evaluate doubles) := by
  have hvalue : (t.map .ok).value arithmetic = .ok (t.value doubles) :=
    Tree.value_map (f := (.ok : Double → Except Failure Double)) (fun _ => rfl) apply_eq t
  simp only [value, runTasks_visit, runTasks, hvalue, Tree.evaluate_eq_value]

def parse (text : String) : Except SyntaxFault (Tree (Except Failure Double)) := do
  parseTokens numeral text.length (← tokens text)

def evaluate (template : String) (get? : String → Option Value) : Except Failure Double := do
  let text := String.ofList (← fill get? template.toList)
  value (← (parse text).mapError (.malformed · text))

theorem parse_eq (text : String) : parse text = (Expression.parse text).map (Tree.map .ok) := by
  unfold parse Expression.parse
  cases hts : tokens text with
  | error fault => rfl
  | ok ts => exact parseTokens_map text.length fun token ht written => numeral_of_mem_tokens hts ht

/-- There is no failure but that of a text that is no expression: the text is always filled, every
number in it is read and every operation has a result. -/
theorem evaluate_eq (template : String) (get? : String → Option Value) :
    evaluate template get? =
      (Expression.evaluate template get?).mapError fun p => .malformed p.1 p.2 := by
  have htext : evaluate template get? =
      ((parse (Template.interpolate template get?)).mapError
        (.malformed · (Template.interpolate template get?)) >>= value) := by
    rw [evaluate, fill_eq]
    rfl
  rw [htext, parse_eq, Expression.evaluate]
  cases Expression.parse (Template.interpolate template get?) with
  | error fault => rfl
  | ok tree => exact value_map_ok tree

end Attempt

end Flowsheet.Expression
