import Flowsheet.Proofs.Expression.Acceptance
import Flowsheet.Proofs.Expression.Decomposition

/-! The parser points at the first token that no expression can have there. It reads on for as long
as what it has read can be completed, and it is enough to complete it with an operand, if one has to
begin, and with the parentheses that are still missing. -/

namespace Flowsheet.Expression

variable {α : Type} {valueOf : List Char → α} {ts : List Token}

namespace ParseState

def completion (s : ParseState α) : List Symbol :=
  (match s.operand with
    | none => [.number ['0']]
    | some _ => []) ++ List.replicate s.outer.length .closeParen

theorem isValid_of_mem_completion (s : ParseState α) :
    ∀ symbol ∈ s.completion, symbol.IsValid := by
  have hdigits : Numeral.AllDigits ['0'] := List.forall_mem_singleton.mpr (by decide)
  have hzero : Numeral.IsNumber ['0'] :=
    .numeral _ (.intro ['0'] [] (.whole _ (List.cons_ne_nil _ _) hdigits) .absent)
  intro symbol hm numeral hs
  subst hs
  cases ho : s.operand with
  | none =>
    simp only [completion, ho, List.mem_append, List.mem_singleton, List.mem_replicate] at hm
    obtain hm | ⟨-, hm⟩ := hm
    · cases hm
      exact hzero
    · cases hm
  | some operand =>
    simp [completion, ho] at hm

theorem foldlM_closeParens (level : Level α) (outer : List (Level α)) (operand : Tree α)
    (hts : ts.map Token.symbol = List.replicate outer.length .closeParen) :
    ∃ last whole, ts.foldlM (step valueOf) ⟨level, outer, some operand⟩ =
      .ok ⟨last, [], some whole⟩ := by
  induction outer generalizing level operand ts with
  | nil =>
    obtain rfl := List.map_eq_nil_iff.mp hts
    exact ⟨level, operand, rfl⟩
  | cons around outer ih =>
    obtain ⟨token, rest, rfl, ht, hrest⟩ := List.map_eq_cons_iff.mp hts
    rw [foldlM_cons_ok (step_closeParen ht)]
    exact ih _ _ hrest

theorem foldlM_completion (s : ParseState α) (hts : ts.map Token.symbol = s.completion) :
    ∃ last whole, ts.foldlM (step valueOf) s = .ok ⟨last, [], some whole⟩ := by
  obtain ⟨level, outer, operand⟩ := s
  cases operand with
  | none =>
    obtain ⟨token, rest, rfl, ht, hrest⟩ := List.map_eq_cons_iff.mp hts
    rw [foldlM_cons_ok (step_number ht)]
    exact foldlM_closeParens _ outer _ hrest
  | some operand => exact foldlM_closeParens level outer operand hts

theorem finish_eq_error {s : ParseState α} {length : Nat} {fault : SyntaxFault}
    (hf : s.finish length = .error fault) : fault.position = length ∧ s.completion ≠ [] := by
  obtain ⟨level, outer, operand⟩ := s
  cases operand with
  | none =>
    cases hf
    exact ⟨rfl, List.cons_ne_nil _ _⟩
  | some operand =>
    cases outer with
    | nil => cases hf
    | cons around outer =>
      cases hf
      exact ⟨rfl, List.cons_ne_nil _ _⟩

theorem position_of_step {s : ParseState α} {token : Token} {fault : SyntaxFault}
    (hs : s.step valueOf token = .error fault) : fault.position = token.position := by
  obtain ⟨cause, -, rfl⟩ := mapError_eq_error.mp hs
  rfl

end ParseState

/-- The symbols are those of a text that is parsed. -/
def Accepted (symbols : List Symbol) : Prop :=
  ∃ text ts tree, tokens text = .ok ts ∧ ts.map Token.symbol = symbols ∧ parse text = .ok tree

/-- The symbols, with others behind them, are those of a text that is parsed. -/
def Viable (symbols : List Symbol) : Prop :=
  ∃ more, Accepted (symbols ++ more)

theorem exists_tokens {symbols : List Symbol} (hv : ∀ symbol ∈ symbols, symbol.IsValid)
    (hc : symbols.IsChain Symbol.Apart) :
    ∃ text ts, tokens text = .ok ts ∧ ts.map Token.symbol = symbols := by
  obtain ⟨ts, hts, hsymbols⟩ := tokensFrom_spaced 0 (spaced_flatten (symbols.map Symbol.text)) hv hc
  exact ⟨String.ofList (symbols.map Symbol.text).flatten, ts, by rwa [tokens, String.toList_ofList],
    hsymbols⟩

theorem accepted_of_parseTokens {length : Nat} {tree : Tree Double}
    (hv : ∀ token ∈ ts, token.symbol.IsValid)
    (hp : parseTokens numberValue length ts = .ok tree) : Accepted (ts.map Token.symbol) := by
  obtain ⟨e, he, hs, -⟩ := Derivation.exists_shallow_of_parseTokens hp
  obtain ⟨text, us, hus, hsymbols⟩ :=
    exists_tokens (he ▸ List.forall_mem_map.mpr hv) e.isChain_symbols
  exact ⟨text, us, e.tree numberValue, hus, hsymbols.trans he,
    Derivation.Derives.parse_eq ⟨us, hus, hsymbols.symm⟩ hs⟩

/-- It makes no difference where the tokens lie. -/
theorem exists_tree_of_accepted (length : Nat) (ha : Accepted (ts.map Token.symbol)) :
    ∃ tree, parseTokens numberValue length ts = .ok tree := by
  obtain ⟨text, us, tree, hus, hsymbols, hp⟩ := ha
  obtain ⟨e, ⟨us', hus', he⟩, hs, -⟩ := Derivation.exists_of_parse hp
  cases hus.symm.trans hus'
  exact ⟨_, parseTokens_phrase length (hsymbols.symm.trans he.symm) (e.isShallow_iff.mp hs)⟩

theorem exists_map_symbol (symbols : List Symbol) :
    ∃ ts : List Token, ts.map Token.symbol = symbols :=
  ⟨symbols.map fun symbol => ⟨symbol, 0⟩, by simp [Function.comp_def]⟩

theorem accepted_completion {s : ParseState Double} (hv : ∀ token ∈ ts, token.symbol.IsValid)
    (hs : ts.foldlM (ParseState.step numberValue) .start = .ok s) :
    Accepted (ts.map Token.symbol ++ s.completion) := by
  obtain ⟨more, hmore⟩ := exists_map_symbol s.completion
  obtain ⟨last, whole, hlast⟩ := s.foldlM_completion hmore
  have hmorevalid : ∀ token ∈ more, token.symbol.IsValid :=
    List.forall_mem_map.mp (hmore ▸ s.isValid_of_mem_completion)
  have hp : parseTokens numberValue 0 (ts ++ more) = .ok (last.closeSum whole) :=
    parseTokens_eq_ok.mpr ⟨_, (foldlM_append_ok hs).trans hlast, rfl⟩
  rw [← hmore, ← List.map_append]
  exact accepted_of_parseTokens (List.forall_mem_append.mpr ⟨hv, hmorevalid⟩) hp

/-- The tokens that can be completed are those that the parser reads without fault. -/
theorem viable_iff (hv : ∀ token ∈ ts, token.symbol.IsValid) :
    Viable (ts.map Token.symbol) ↔
      ∃ s, ts.foldlM (ParseState.step numberValue) .start = .ok s := by
  constructor
  · rintro ⟨symbols, ha⟩
    obtain ⟨more, rfl⟩ := exists_map_symbol symbols
    rw [← List.map_append] at ha
    obtain ⟨tree, hp⟩ := exists_tree_of_accepted 0 ha
    obtain ⟨last, hlast, -⟩ := parseTokens_eq_ok.mp hp
    rw [List.foldlM_append] at hlast
    obtain ⟨s, hs, -⟩ := bind_eq_ok.mp hlast
    exact ⟨s, hs⟩
  · rintro ⟨s, hs⟩
    exact ⟨s.completion, accepted_completion hv hs⟩

/-- Either the text ends too early, and there is an expression that goes on, or there is one up to
the token at the fault and none with that token. -/
structure Pinpoints (text : String) : Prop where
  empty : tokens text = .ok [] → parse text = .error ⟨.empty, 0⟩
  incomplete : ∀ ts fault, tokens text = .ok ts → ts ≠ [] → parse text = .error fault →
    fault.position = text.length →
    ¬ Accepted (ts.map Token.symbol) ∧
      ∃ more, more ≠ [] ∧ Accepted (ts.map Token.symbol ++ more)
  misplaced : ∀ ts fault, tokens text = .ok ts → ts ≠ [] → parse text = .error fault →
    fault.position ≠ text.length →
    ∃ before token after, ts = before ++ token :: after ∧ fault.position = token.position ∧
      Viable (before.map Token.symbol) ∧ ¬ Viable ((before ++ [token]).map Token.symbol)

theorem parse_eq_error {text : String} {fault : SyntaxFault} (hts : tokens text = .ok ts)
    (hne : ts ≠ []) (hp : parse text = .error fault) :
    (∃ before token after s, ts = before ++ token :: after ∧
      before.foldlM (ParseState.step numberValue) .start = .ok s ∧
      s.step numberValue token = .error fault) ∨
    ∃ s, ts.foldlM (ParseState.step numberValue) .start = .ok s ∧
      s.finish text.length = .error fault := by
  rw [parse, hts, ok_bind, parseTokens_eq text.length hne] at hp
  exact (bind_eq_error.mp hp).imp_left foldlM_eq_error.mp

theorem parse_pinpoints (text : String) : Pinpoints text where
  empty hts := by
    rw [parse, hts]
    rfl
  incomplete ts fault hts hne hp hposition := by
    have hv := isValid_of_mem_tokensFrom hts
    constructor
    · intro ha
      obtain ⟨tree, htree⟩ := exists_tree_of_accepted text.length ha
      rw [parse, hts, ok_bind, htree] at hp
      cases hp
    · rcases parse_eq_error hts hne hp with ⟨before, token, after, s, rfl, -, hs⟩ | ⟨s, hs, hf⟩
      · have hlt := position_lt_length hts token (by simp)
        rw [← ParseState.position_of_step hs, hposition] at hlt
        exact absurd hlt (Nat.lt_irrefl _)
      · exact ⟨s.completion, (ParseState.finish_eq_error hf).2, accepted_completion hv hs⟩
  misplaced ts fault hts hne hp hposition := by
    have hv := isValid_of_mem_tokensFrom hts
    rcases parse_eq_error hts hne hp with ⟨before, token, after, s, rfl, hs, hf⟩ | ⟨s, -, hf⟩
    · have hbefore := List.forall_mem_append.mp hv
      have htoken := List.forall_mem_cons.mp hbefore.2
      refine ⟨before, token, after, rfl, ParseState.position_of_step hf,
        (viable_iff hbefore.1).mpr ⟨s, hs⟩, ?_⟩
      rw [viable_iff (List.forall_mem_append.mpr ⟨hbefore.1, by simpa using htoken.1⟩)]
      rintro ⟨t, ht⟩
      rw [foldlM_append_ok hs, foldlM_cons_error [] hf] at ht
      cases ht
    · exact absurd (ParseState.finish_eq_error hf).1 hposition

/-- The second number is at fault, for after the first the parenthesis could still be closed. -/
example : parseTokens id 5 [⟨.openParen, 0⟩, ⟨.number ['1'], 1⟩, ⟨.number ['2'], 3⟩] =
    .error ⟨.missingParenthesis, 3⟩ := rfl

end Flowsheet.Expression
