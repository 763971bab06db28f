import Flowsheet.Expression.Token
import Flowsheet.Expression.Tree

/-! From tokens to trees in one pass. Each pair of parentheses opens a level; a level holds the
operands and signs that still wait for what follows. Signs bind closest, then products, then sums,
and equal operators group from the left. -/

namespace Flowsheet.Expression

/-- How many signs and parentheses may enclose a place. -/
def nestingLimit : Nat := 100

/-- The left operands that wait at one level, and the signs of the next operand, latest first. -/
structure Level (α : Type) where
  sum : Option (Tree α × Operation)
  product : Option (Tree α × Operation)
  signs : List Sign

namespace Level

variable {α : Type}

def start : Level α := ⟨none, none, []⟩

def join (waiting : Option (Tree α × Operation)) (t : Tree α) : Tree α :=
  match waiting with
  | some (left, operation) => .binary operation left t
  | none => t

/-- The operand with the signs before it. -/
def applySigns (signs : List Sign) (t : Tree α) : Tree α :=
  signs.foldl (fun acc sign => .signed sign acc) t

def closeProduct (level : Level α) (t : Tree α) : Tree α :=
  join level.product t

def closeSum (level : Level α) (t : Tree α) : Tree α :=
  join level.sum (level.closeProduct t)

end Level

/-- The innermost level, the levels around it, and the operand just read, if one was. -/
structure ParseState (α : Type) where
  level : Level α
  outer : List (Level α)
  operand : Option (Tree α)

namespace ParseState

variable {α : Type}

def start : ParseState α := ⟨.start, [], none⟩

/-- How many signs and parentheses enclose the next token. -/
def nesting (s : ParseState α) : Nat :=
  s.outer.foldl (fun n level => n + level.signs.length + 1) s.level.signs.length

def addOperand (level : Level α) (outer : List (Level α)) (t : Tree α) : ParseState α :=
  ⟨{ level with signs := [] }, outer, some (Level.applySigns level.signs t)⟩

/-- A step where an operand has to begin. -/
def beginOperand (valueOf : List Char → α) (s : ParseState α) (symbol : Symbol) :
    Except Cause (ParseState α) :=
  let nest (next : ParseState α) : Except Cause (ParseState α) :=
    if s.nesting < nestingLimit then .ok next else .error .nestedTooDeeply
  match symbol with
  | .number numeral => .ok (addOperand s.level s.outer (.number (valueOf numeral)))
  | .plus => nest { s with level := { s.level with signs := .plus :: s.level.signs } }
  | .minus => nest { s with level := { s.level with signs := .minus :: s.level.signs } }
  | .openParen => nest ⟨.start, s.level :: s.outer, none⟩
  | _ => .error (.unexpected symbol)

/-- A step after an operand. A token that cannot follow one is out of place, and inside parentheses
it is the closing one that is missing. -/
def afterOperand (s : ParseState α) (operand : Tree α) (symbol : Symbol) :
    Except Cause (ParseState α) :=
  let extend (level : Level α) : Except Cause (ParseState α) := .ok ⟨level, s.outer, none⟩
  match symbol with
  | .plus => extend ⟨some (s.level.closeSum operand, .add), none, []⟩
  | .minus => extend ⟨some (s.level.closeSum operand, .sub), none, []⟩
  | .times => extend { s.level with product := some (s.level.closeProduct operand, .mul) }
  | .divide => extend { s.level with product := some (s.level.closeProduct operand, .div) }
  | _ => match s.outer, symbol with
    | level :: outer, .closeParen => .ok (addOperand level outer (s.level.closeSum operand))
    | _ :: _, _ => .error .missingParenthesis
    | [], _ => .error (.unexpected symbol)

def step (valueOf : List Char → α) (s : ParseState α) (token : Token) :
    Except SyntaxFault (ParseState α) :=
  let next := match s.operand with
    | none => s.beginOperand valueOf token.symbol
    | some operand => s.afterOperand operand token.symbol
  next.mapError fun cause => ⟨cause, token.position⟩

/-- The tree of the whole text, whose length is the place to point at if something is missing. -/
def finish (length : Nat) (s : ParseState α) : Except SyntaxFault (Tree α) :=
  match s.operand, s.outer with
  | none, _ => .error ⟨.unexpectedEnd, length⟩
  | some _, _ :: _ => .error ⟨.missingParenthesis, length⟩
  | some operand, [] => .ok (s.level.closeSum operand)

end ParseState

def parseTokens {α : Type} (valueOf : List Char → α) (length : Nat) (ts : List Token) :
    Except SyntaxFault (Tree α) :=
  match ts with
  | [] => .error ⟨.empty, 0⟩
  | _ => do (← ts.foldlM (ParseState.step valueOf) .start).finish length

/-- What a numeral or one of the two words stands for. -/
def numberValue (numeral : List Char) : Double :=
  if numeral = Numeral.infinityName then .infinite false
  else if numeral = Numeral.nanName then .nan 0
  else Numeral.value false numeral

def parse (text : String) : Except SyntaxFault (Tree Double) := do
  parseTokens numberValue text.length (← tokens text)

end Flowsheet.Expression
