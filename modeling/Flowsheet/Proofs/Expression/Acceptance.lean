import Flowsheet.Proofs.Expression.Reading

/-! The texts that the parser accepts are those with a derivation that is nowhere nested too deeply,
and there is only one such derivation, whose tree it is that the parser builds. -/

namespace Flowsheet.Expression

variable {α : Type} {c : Category}

/-- For each sign and each pair of parentheses, how many others enclose it, if `n` enclose the
phrase. Phrases side by side do not add up. -/
def Phrase.enclosures (n : Nat) {c : Category} : Phrase α c → List Nat
  | operand _ => []
  | group e => n :: e.enclosures (n + 1)
  | primary p => p.enclosures n
  | signed _ u => n :: u.enclosures (n + 1)
  | unary u => u.enclosures n
  | product t _ u => t.enclosures n ++ u.enclosures n
  | term t => t.enclosures n
  | sum e _ t => e.enclosures n ++ t.enclosures n

theorem Phrase.enclosures_lt_iff {limit : Nat} (p : Phrase α c) {n : Nat} (hn : n ≤ limit) :
    (∀ k ∈ p.enclosures n, k < limit) ↔ n + p.depth ≤ limit := by
  -- A sign or parenthesis counts as one more level for what it encloses.
  have hmark : ∀ {n d : Nat} {ks : List Nat}, n ≤ limit →
      (n + 1 ≤ limit → ((∀ k ∈ ks, k < limit) ↔ n + 1 + d ≤ limit)) →
      ((∀ k ∈ n :: ks, k < limit) ↔ n + (d + 1) ≤ limit) := by
    intro n d ks hn hrest
    rw [List.forall_mem_cons]
    constructor
    · rintro ⟨hlt, hks⟩
      have := (hrest hlt).mp hks
      omega
    · intro hle
      exact ⟨by omega, (hrest (by omega)).mpr (by omega)⟩
  have hboth : ∀ {n d e : Nat} {ks ls : List Nat}, ((∀ k ∈ ks, k < limit) ↔ n + d ≤ limit) →
      ((∀ k ∈ ls, k < limit) ↔ n + e ≤ limit) →
      ((∀ k ∈ ks ++ ls, k < limit) ↔ n + max d e ≤ limit) := by
    intro n d e ks ls hks hls
    rw [List.forall_mem_append, hks, hls]
    omega
  induction p generalizing n with
  | operand x => exact iff_of_true (List.forall_mem_nil _) hn
  | group e ih => exact hmark hn ih
  | primary p ih => exact ih hn
  | signed sign u ih => exact hmark hn ih
  | unary u ih => exact ih hn
  | product t scaling u iht ihu => exact hboth (iht hn) (ihu hn)
  | term t ih => exact ih hn
  | sum e sign t ihe iht => exact hboth (ihe hn) (iht hn)

namespace Derivation

/-- The tokens of the text are the symbols of the derivation. -/
def Derives (e : Derivation .expression) (text : String) : Prop :=
  ∃ ts, tokens text = .ok ts ∧ e.symbols = ts.map Token.symbol

/-- No sign and no parenthesis is enclosed by as many others as the limit. -/
def IsShallow (e : Derivation .expression) : Prop :=
  ∀ k ∈ e.enclosures 0, k < nestingLimit

theorem isShallow_iff (e : Derivation .expression) : e.IsShallow ↔ e.depth ≤ nestingLimit := by
  rw [IsShallow, e.enclosures_lt_iff (Nat.zero_le _), Nat.zero_add]

variable {e f : Derivation .expression} {text : String}

theorem Derives.unique (he : e.Derives text) (hf : f.Derives text) : e = f := by
  obtain ⟨ts, hts, hsymbols⟩ := he
  obtain ⟨us, hus, hsymbols'⟩ := hf
  obtain rfl := Except.ok.inj (hts.symm.trans hus)
  exact symbols_injective (hsymbols.trans hsymbols'.symm)

theorem Derives.parse_eq (he : e.Derives text) (hs : e.IsShallow) :
    parse text = .ok (e.tree numberValue) := by
  obtain ⟨ts, hts, hsymbols⟩ := he
  rw [parse, hts, ok_bind]
  exact parseTokens_phrase text.length hsymbols.symm (e.isShallow_iff.mp hs)

theorem exists_shallow_of_parseTokens {leaf : List Char → α} {length : Nat} {ts : List Token}
    {tree : Tree α} (hp : parseTokens leaf length ts = .ok tree) :
    ∃ e : Derivation .expression, e.symbols = ts.map Token.symbol ∧ e.IsShallow ∧
      e.tree leaf = tree := by
  obtain ⟨e, hsymbols, htree⟩ := exists_derivation_of_parseTokens hp
  refine ⟨e, hsymbols, e.isShallow_iff.mpr (Nat.le_of_not_lt fun hdeep => ?_), htree⟩
  -- A phrase nested more deeply would have been refused.
  obtain ⟨position, herror⟩ := parseTokens_phrase_error length hsymbols.symm hdeep
  rw [hp] at herror
  cases herror

theorem exists_of_parse {tree : Tree Double} (hp : parse text = .ok tree) :
    ∃ e : Derivation .expression, e.Derives text ∧ e.IsShallow ∧ e.tree numberValue = tree := by
  obtain ⟨ts, hts, htokens⟩ := bind_eq_ok.mp hp
  obtain ⟨e, hsymbols, hs, htree⟩ := exists_shallow_of_parseTokens htokens
  exact ⟨e, ⟨ts, hts, hsymbols⟩, hs, htree⟩

end Derivation

/-- A text is parsed exactly if it has a shallow derivation, which is then its only one, and the
result is the tree of that derivation. Every other text is refused. -/
theorem parse_exact (text : String) :
    (∀ tree, parse text = .ok tree ↔ ∃ e : Derivation .expression,
      e.Derives text ∧ e.IsShallow ∧ e.tree numberValue = tree) ∧
    (∀ e f : Derivation .expression, e.Derives text → f.Derives text → e = f) ∧
    ((¬ ∃ e : Derivation .expression, e.Derives text ∧ e.IsShallow) →
      ∃ fault, parse text = .error fault) := by
  refine ⟨fun tree => ⟨Derivation.exists_of_parse, ?_⟩, fun e f => Derivation.Derives.unique, ?_⟩
  · rintro ⟨e, he, hs, rfl⟩
    exact he.parse_eq hs
  · intro hnone
    cases hp : parse text with
    | error fault => exact ⟨fault, rfl⟩
    | ok tree =>
      obtain ⟨e, he, hs, -⟩ := Derivation.exists_of_parse hp
      exact absurd ⟨e, he, hs⟩ hnone

/-- A product binds closer than a difference, and of two differences the left one comes first. -/
example : parseTokens id 7 [⟨.number ['8'], 0⟩, ⟨.minus, 1⟩, ⟨.minus, 2⟩, ⟨.number ['4'], 3⟩,
      ⟨.times, 4⟩, ⟨.number ['2'], 5⟩, ⟨.minus, 6⟩, ⟨.number ['1'], 7⟩] =
    .ok (.binary .sub (.binary .sub (.number ['8'])
      (.binary .mul (.signed .minus (.number ['4'])) (.number ['2']))) (.number ['1'])) := rfl

/-- A number inside so many parentheses. -/
def enclosed (n : Nat) : List Token :=
  List.replicate n ⟨.openParen, 0⟩ ++ ⟨.number ['1'], 0⟩ :: List.replicate n ⟨.closeParen, 0⟩

example : (parseTokens id 0 (enclosed 100)).isOk = true ∧
    (parseTokens id 0 (enclosed 101)).isOk = false := by
  constructor <;> decide +kernel

end Flowsheet.Expression
