import Flowsheet.Numeral
import Flowsheet.Text.Blank
import Flowsheet.Text.Quoted

/-! Tokens of arithmetic text: numerals, the words for infinity and for what is not a number, the
four operators and parentheses. Blanks separate tokens and mean nothing else. -/

namespace Flowsheet.Expression

inductive Symbol where
  | number (numeral : List Char)
  | plus
  | minus
  | times
  | divide
  | openParen
  | closeParen
deriving DecidableEq, Repr

def Symbol.text : Symbol → List Char
  | .number numeral => numeral
  | .plus => ['+']
  | .minus => ['-']
  | .times => ['*']
  | .divide => ['/']
  | .openParen => ['(']
  | .closeParen => [')']

def Symbol.isNumber : Symbol → Bool
  | .number _ => true
  | _ => false

/-- A symbol and the offset of its first character. -/
structure Token where
  symbol : Symbol
  position : Nat
deriving DecidableEq, Repr

/-- What makes a text no arithmetic expression. -/
inductive Cause where
  | unexpectedCharacter (c : Char)
  | empty
  | unexpected (symbol : Symbol)
  | unexpectedEnd
  | missingParenthesis
  | nestedTooDeeply
deriving DecidableEq, Repr

structure SyntaxFault where
  cause : Cause
  position : Nat
deriving DecidableEq, Repr

def Cause.text : Cause → String
  | .unexpectedCharacter c => s!"Unexpected character {Text.quoted (String.ofList [c])}"
  | .empty => "Empty expression"
  | .unexpected symbol => s!"Unexpected {Text.quoted (String.ofList symbol.text)}"
  | .unexpectedEnd => "Unexpected end of expression"
  | .missingParenthesis => "Missing closing parenthesis"
  | .nestedTooDeeply => "Expression nested too deeply"

/-- An empty text has no place to point at. -/
def SyntaxFault.message (fault : SyntaxFault) : String :=
  match fault.cause with
  | .empty => fault.cause.text
  | cause => s!"{cause.text} at position {fault.position}"

def operator? : Char → Option Symbol
  | '+' => some .plus
  | '-' => some .minus
  | '*' => some .times
  | '/' => some .divide
  | '(' => some .openParen
  | ')' => some .closeParen
  | _ => none

def splitWord (word cs : List Char) : Option (List Char × List Char) :=
  if word.isPrefixOf cs then some (word, cs.drop word.length) else none

/-- The number that the text begins with, in its longest reading. -/
def splitNumber (cs : List Char) : Option (List Char × List Char) :=
  (Numeral.split? cs).or ((splitWord Numeral.infinityName cs).or (splitWord Numeral.nanName cs))

/-- The symbol that the text begins with, and the rest of the text. -/
def splitSymbol (cs : List Char) : Option (Symbol × List Char) :=
  match splitNumber cs with
  | some (numeral, rest) => some (.number numeral, rest)
  | none => match cs with
    | c :: rest => (operator? c).map fun symbol => (symbol, rest)
    | [] => none

theorem splitWord_append {word cs numeral rest : List Char} (hw : word ≠ [])
    (h : splitWord word cs = some (numeral, rest)) : numeral ++ rest = cs ∧ numeral ≠ [] := by
  unfold splitWord at h
  split at h
  · next hp =>
    obtain ⟨tail, ht⟩ := List.isPrefixOf_iff_prefix.1 hp
    cases h
    subst ht
    exact ⟨by simp, hw⟩
  · simp at h

theorem splitNumber_append {cs numeral rest : List Char}
    (h : splitNumber cs = some (numeral, rest)) : numeral ++ rest = cs ∧ numeral ≠ [] := by
  unfold splitNumber at h
  rcases Option.or_eq_some_iff.1 h with hn | ⟨_, hw⟩
  · exact Numeral.split?_append hn
  · rcases Option.or_eq_some_iff.1 hw with hi | ⟨_, hnan⟩
    · exact splitWord_append (by decide) hi
    · exact splitWord_append (by decide) hnan

theorem text_of_operator? {c : Char} {symbol : Symbol} (h : operator? c = some symbol) :
    symbol.text = [c] := by
  unfold operator? at h
  split at h <;> cases h <;> rfl

/-- The text of a symbol and the rest make up the text, and no symbol is empty. -/
theorem splitSymbol_append {cs rest : List Char} {symbol : Symbol}
    (h : splitSymbol cs = some (symbol, rest)) : symbol.text ++ rest = cs ∧ symbol.text ≠ [] := by
  unfold splitSymbol at h
  split at h
  · next hn =>
    cases h
    exact splitNumber_append hn
  · split at h
    · obtain ⟨s, hs, he⟩ := Option.map_eq_some_iff.1 h
      cases he
      simp [text_of_operator? hs]
    · simp at h

theorem length_of_splitSymbol {cs rest : List Char} {symbol : Symbol}
    (h : splitSymbol cs = some (symbol, rest)) : rest.length < cs.length := by
  obtain ⟨happend, hne⟩ := splitSymbol_append h
  have := List.length_pos_iff.2 hne
  rw [← happend, List.length_append]
  omega

/-- The tokens of a text that begins at the given offset of a larger one. -/
def tokensFrom (position : Nat) (cs : List Char) : Except SyntaxFault (List Token) :=
  match _hcs : cs with
  | [] => .ok []
  | c :: rest =>
    if Text.isBlank c then tokensFrom (position + 1) rest
    else match h : splitSymbol cs with
      | some (symbol, after) =>
        have := length_of_splitSymbol h
        (tokensFrom (position + symbol.text.length) after).map (⟨symbol, position⟩ :: ·)
      | none => .error ⟨.unexpectedCharacter c, position⟩
termination_by cs.length
decreasing_by all_goals simp_all

def tokens (text : String) : Except SyntaxFault (List Token) :=
  tokensFrom 0 text.toList

end Flowsheet.Expression
